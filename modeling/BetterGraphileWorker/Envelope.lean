-- SUMMARY: The parts of the envelope: when every reader inverts every mixture of concurrent patches and continuations.
import BetterGraphileWorker.Data.Payload
import BetterGraphileWorker.Data.WireText
import BetterGraphileWorker.Database.Tables
import BetterGraphileWorker.Library.Runs
import BetterGraphileWorker.Library.Table

/-!
# Parts of the envelope

One JSON object carries the input of a job and what the library adds to it. Checkpoints,
progress, the waited mark and `_cron` are patches of the object in its row, each of which locks
the row, reads the object and writes it back; a continuation copies it. `Past` says what a
row's object should decode to, from the updates that it and the rows it continues have had. Ids
are JavaScript strings, and the server gets them as UTF-8.
-/

namespace BetterGraphileWorker

/-! ## The step cache -/

/-- An object with own properties. An assignment to `__proto__` calls an accessor of `Object.prototype`. -/
structure JsRecord (α : Type) where
  inherits : Bool
  own : List (String × α)

namespace JsRecord

variable {α : Type}

/-- `Object.create(null)`. -/
def bare : JsRecord α := ⟨false, []⟩

/-- `record[key] = value`, for a value that is not an object to inherit from. -/
def assign (record : JsRecord α) (key : String) (value : α) : JsRecord α :=
  if record.inherits && key = "__proto__" then record
  else { record with own := record.own.filter (·.1 ≠ key) ++ [(key, value)] }

/-- `record[key]` of own properties. The driver reads the keys of a row from UTF-8. -/
def get? (record : JsRecord α) (key : JsString) : Option α :=
  (record.own.find? fun field => JsString.ofString field.1 = key).map Prod.snd

end JsRecord

/-- `Object.entries` of an object: every key once. -/
def Json.entries : List (String × Json) → List (String × Json)
  | [] => []
  | (key, value) :: fields => (key, value) :: (entries fields).filter (·.1 ≠ key)

namespace Payload

/-- The loop of `extractStepCache`. -/
def collectSteps (cache : JsRecord StepCacheEntry) :
    List (String × Json) → JsRecord StepCacheEntry
  | [] => cache
  | (id, e) :: entries =>
    match decodeEntry e with
    | some checkpoint => collectSteps (cache.assign id checkpoint) entries
    | none => collectSteps cache entries

/-- `extractStepCache` of an envelope. -/
def stepCache (payload : Json) : JsRecord StepCacheEntry :=
  match payload.get? "steps" with
  | some (.obj fields) => collectSteps .bare (Json.entries fields)
  | _ => .bare

/-- `typeof payload.traceparent === 'string'`. -/
def traceparent (payload : Json) : Option String :=
  match payload.get? "traceparent" with
  | some (.str t) => some t
  | _ => none

end Payload

namespace Envelope

/-! ## Patches -/

inductive Patch where
  | checkpoint (id : JsString) (output : Option Json)
  | progress (value : Json)
  /-- The mark of a child that a wait enqueued. -/
  | waited
  /-- Graphile's addition to the payload of a cron fire. -/
  | cron (metadata : Json)

/-- The object that the statement writes, unless its guard fails. -/
def Patch.apply (data : Json) : Patch → Option Json
  | .checkpoint id output =>
    -- A `text` parameter has no U+0000.
    if Payload.patchable data ∧ 0 ∉ id then some (Payload.setStep data id.utf8 (entry output).toJson)
    else none
  | .progress value => if Payload.patchable data then some (Payload.setProgress data value) else none
  | .waited => if data.isObject then some (Payload.markWaited data) else none
  | .cron metadata => some (data.set "_cron" metadata)

/-- An update of a row: a patch, or the continuation that copies it. -/
inductive Update where
  | patch (patch : Patch)
  | continue (progress : Option Json) (traceparent : Option String)

/-- A transaction that updates a row; `data` is the payload it has read once it holds the row. -/
structure Tx where
  row : JobId
  update : Update
  data : Option Json

structure State where
  rows : Table JobId Json
  txs : Table ℕ Tx
  nextRow : JobId
  nextTx : ℕ

inductive Event where
  | enqueue (data : Option Json) (traceparent : Option String)
  | begin (row : JobId) (update : Update)
  /-- `FOR UPDATE` returns the row. -/
  | lock (k : ℕ)
  | commit (k : ℕ)
  | rollback (k : ℕ)

namespace State

variable (s : State)

def insertRow (payload : Json) : State :=
  { s with rows := s.rows.insert s.nextRow payload, nextRow := s.nextRow + 1 }

/-- No other transaction holds the row. -/
def free (k : ℕ) (row : JobId) : Bool :=
  !s.txs.any fun k' tx => k' ≠ k && tx.row = row && tx.data.isSome

def exec : Event → Option State
  | .enqueue data traceparent => some (s.insertRow (Payload.injectTraceContext data traceparent))
  | .begin row update =>
    some { s with txs := s.txs.insert s.nextTx ⟨row, update, none⟩, nextTx := s.nextTx + 1 }
  | .lock k =>
    match s.txs.get? k with
    | some ⟨row, update, none⟩ =>
      match s.rows.get? row with
      | some payload =>
        if s.free k row then some { s with txs := s.txs.insert k ⟨row, update, some payload⟩ }
        else none
      | none => none
    | _ => none
  | .commit k =>
    match s.txs.get? k with
    | some ⟨row, .patch patch, some data⟩ =>
      match patch.apply data with
      | some payload =>
        some { s with rows := s.rows.insert row payload, txs := s.txs.erase k }
      | none => none
    | some ⟨_, .continue progress traceparent, some data⟩ =>
      let s := s.insertRow (Payload.continueEnvelope data progress traceparent)
      some { s with txs := s.txs.erase k }
    | _ => none
  | .rollback k =>
    match s.txs.get? k with
    | some _ => some { s with txs := s.txs.erase k }
    | none => none

end State

/-! ## The past of a row -/

/-- What a row was enqueued with, and the updates of it and of the rows that it continues. -/
structure Past where
  input : Option Json
  traceparent : Option String
  updates : List Update
  /-- The row itself and those that it continues. -/
  rows : List JobId

namespace Update

/-- The last element for which `f` is defined. -/
def last {α : Type} (updates : List Update) (f : Update → Option α) : Option α :=
  (updates.filterMap f).getLast?

def checkpoint? (id : JsString) : Update → Option StepCacheEntry
  | .patch (.checkpoint id' output) => if id = id' then some (entry output) else none
  | _ => none

/-- The checkpoint that the server has under a key. -/
def stored? (key : String) : Update → Option StepCacheEntry
  | .patch (.checkpoint id output) => if key = id.utf8 then some (entry output) else none
  | _ => none

/-- The in-memory value that a continuation carries is the one set last. -/
def progress? : Update → Option Json
  | .patch (.progress value) => some value
  | .continue progress _ => progress
  | _ => none

def waited? : Update → Option Bool
  | .patch .waited => some true
  | _ => none

/-- A continuation has no metadata of a cron fire. -/
def cron? : Update → Option (Option Json)
  | .patch (.cron metadata) => some (some metadata)
  | .continue _ _ => some none
  | _ => none

/-- A continuation has the traceparent of the call that continued. -/
def traceparent? : Update → Option (Option String)
  | .continue _ traceparent => some traceparent
  | _ => none

end Update

/-- What the readers of the envelope return, but for the checkpoints. -/
structure Parts (payload : Json) (past : Past) : Prop where
  isPayloadEnvelope : Payload.isPayloadEnvelope payload = true
  cleanPayload : Payload.cleanPayload payload = past.input
  progress : payload.get? "progress" = Update.last past.updates Update.progress?
  waited : Payload.waited payload = (Update.last past.updates Update.waited?).getD false
  cron : payload.get? "_cron" = (Update.last past.updates Update.cron?).join
  traceparent : Payload.traceparent payload =
    (Update.last past.updates Update.traceparent?).getD past.traceparent

/-- What every reader returns. -/
structure Reads (payload : Json) (past : Past) : Prop extends Parts payload past where
  steps : ∀ id, (Payload.stepCache payload).get? id = Update.last past.updates (Update.checkpoint? id)

def Past.start : Past := ⟨none, none, [], []⟩

def Past.add (past : Past) (update : Update) : Past :=
  { past with updates := past.updates ++ [update] }

/-- The pasts of the rows after a step; a patch counts for the rows that continue the patched one. -/
def note (s : State) (e : Event) (_ : State) (pasts : JobId → Past) : JobId → Past :=
  match e with
  | .enqueue data traceparent =>
    Function.update pasts s.nextRow ⟨data, traceparent, [], [s.nextRow]⟩
  | .commit k =>
    match s.txs.get? k with
    | some ⟨row, .patch patch, _⟩ => fun next =>
      if row ∈ (pasts next).rows then (pasts next).add (.patch patch) else pasts next
    | some ⟨row, .continue progress traceparent, _⟩ =>
      Function.update pasts s.nextRow { (pasts row).add (.continue progress traceparent) with
        rows := s.nextRow :: (pasts row).rows }
    | none => pasts
  | _ => pasts

def rowSystem : TransitionSystem State Event where
  Init s := s = ⟨∅, ∅, 0, 0⟩
  step s e := s.exec e

/-- Transactions on the rows, with the past of every row. -/
def system : TransitionSystem (State × (JobId → Past)) Event :=
  rowSystem.observe (fun _ => .start) note

/-- No patch is written to a row after it was continued. -/
def Timely (p : State × (JobId → Past)) (e : Event) : Prop :=
  ∀ k row patch data, e = .commit k → p.1.txs.get? k = some ⟨row, .patch patch, data⟩ →
    ∀ next payload, p.1.rows.get? next = some payload → next ≠ row → row ∉ (p.2 next).rows

end Envelope

/-! ## The step cache as a function -/

theorem Json.lookup_entries {fields : List (String × Json)} {key : String} :
    (Json.entries fields).lookup key = fields.lookup key := by
  induction fields with
  | nil => rfl
  | cons field fields ih =>
    obtain ⟨key', value⟩ := field
    simp only [Json.entries, List.lookup_cons]
    split
    · rfl
    · rename_i hne
      rw [Json.lookup_filter_ne, if_neg (by simpa using hne), ih]

theorem Json.nodup_entries {fields : List (String × Json)} :
    ((Json.entries fields).map Prod.fst).Nodup := by
  induction fields with
  | nil => exact List.nodup_nil
  | cons field fields ih =>
    obtain ⟨key, value⟩ := field
    rw [Json.entries, List.map_cons, List.nodup_cons]
    constructor
    · intro hmem
      obtain ⟨entry, hentry, hkey⟩ := List.mem_map.mp hmem
      have hne := (List.mem_filter.mp hentry).2
      simp [hkey] at hne
    · exact ih.sublist (List.filter_sublist.map _)

namespace JsRecord

variable {α : Type} {record : JsRecord α} {key key' : String} {value : α}

/-- No key is special to an object without a prototype. -/
theorem lookup_assign (h : record.inherits = false) :
    (record.assign key value).own.lookup key' =
      if key' = key then some value else record.own.lookup key' := by
  simp only [assign, h, Bool.false_and, Bool.false_eq_true, if_false, List.lookup_append,
    Json.lookup_filter_ne, List.lookup_cons, List.lookup_nil]
  cases Classical.em (key' = key) with
  | inl heq => simp [heq]
  | inr hne => simp [hne, beq_eq_false_iff_ne.mpr hne]

/-- Only a well-formed string is a key that the driver reads. -/
theorem get?_eq (id : JsString) :
    record.get? id = if id.isWellFormed then record.own.lookup id.utf8 else none := by
  obtain ⟨inherits, own⟩ := record
  induction own with
  | nil => simp [get?]
  | cons field own ih =>
    obtain ⟨key, value⟩ := field
    simp only [get?, List.find?_cons, List.lookup_cons] at ih ⊢
    by_cases hkey : JsString.ofString key = id
    · obtain ⟨hwell, rfl⟩ := JsString.ofString_eq_iff.mp hkey
      simp [hkey, hwell]
    · rw [decide_eq_false hkey]
      dsimp only
      rw [ih]
      split
      · rename_i hwell
        have hne : (id.utf8 == key) = false := by
          rw [beq_eq_false_iff_ne]
          exact fun heq => hkey (JsString.ofString_eq_iff.mpr ⟨hwell, heq.symm⟩)
        rw [hne]
      · rfl

@[simp] theorem inherits_assign : (record.assign key value).inherits = record.inherits := by
  unfold assign
  split <;> rfl

end JsRecord

namespace Payload

variable {payload : Json} {id : String}

private theorem lookup_collectSteps {entries : List (String × Json)} {cache : JsRecord StepCacheEntry}
    (hbare : cache.inherits = false) (hnodup : (entries.map Prod.fst).Nodup) :
    (collectSteps cache entries).own.lookup id =
      ((entries.lookup id).bind decodeEntry).or (cache.own.lookup id) := by
  induction entries generalizing cache with
  | nil => rfl
  | cons e entries ih =>
    obtain ⟨id', e⟩ := e
    rw [List.map_cons, List.nodup_cons] at hnodup
    have hfresh : entries.lookup id' = none := by
      rw [List.lookup_eq_none_iff]
      intro entry hentry
      have hne : id' ≠ entry.1 := by
        intro heq
        exact hnodup.1 (List.mem_map.mpr ⟨entry, hentry, heq.symm⟩)
      simpa using hne
    rw [collectSteps]
    cases hdecode : decodeEntry e with
    | none =>
      dsimp only
      rw [ih hbare hnodup.2, List.lookup_cons]
      split
      · rename_i heq
        rw [beq_iff_eq] at heq
        simp [heq, hfresh, hdecode]
      · rfl
    | some checkpoint =>
      dsimp only
      rw [ih (JsRecord.inherits_assign.trans hbare) hnodup.2, JsRecord.lookup_assign hbare,
        List.lookup_cons]
      cases Classical.em (id = id') with
      | inl heq => simp [heq, hfresh, hdecode]
      | inr hne => simp [hne, beq_eq_false_iff_ne.mpr hne]

/-- The loop collects every checkpoint, whatever its id. -/
theorem lookup_stepCache (h : isPayloadEnvelope payload = true) :
    (stepCache payload).own.lookup id = extractStepCache payload id := by
  simp only [stepCache, extractStepCache, h, if_true, rawStep]
  cases hsteps : payload.get? "steps" with
  | none => rfl
  | some steps =>
    cases steps with
    | obj fields =>
      have hbare : (JsRecord.bare : JsRecord StepCacheEntry).inherits = false := rfl
      rw [lookup_collectSteps hbare Json.nodup_entries, Json.lookup_entries]
      simp [JsRecord.bare, Json.get?]
    | _ => rfl

end Payload

namespace Envelope

/-! ## Updates -/

variable {data payload : Json} {past : Past} {update : Update} {updates : List Update}

private theorem last_append {α : Type} {f : Update → Option α} :
    Update.last (updates ++ [update]) f = (f update).or (Update.last updates f) := by
  rw [Update.last, Update.last, List.filterMap_append]
  cases h : f update with
  | none => simp [h]
  | some a => simp [h]

/-- What every reader returns, with the checkpoints under the keys of the server. -/
private structure Stores (payload : Json) (past : Past) : Prop extends Parts payload past where
  steps : ∀ key, (Payload.stepCache payload).own.lookup key = Update.last past.updates (Update.stored? key)

/-- An update is read back, and every part that it has none of is kept. -/
private theorem Stores.add (h : Stores data past)
    (henv : Payload.isPayloadEnvelope payload = true)
    (hclean : Payload.cleanPayload payload = Payload.cleanPayload data)
    (hsteps : ∀ id, Payload.extractStepCache payload id =
      (update.stored? id).or (Payload.extractStepCache data id))
    (hprogress : payload.get? "progress" = update.progress?.or (data.get? "progress"))
    (hwaited : Payload.waited payload = update.waited?.getD (Payload.waited data))
    (hcron : payload.get? "_cron" = update.cron?.getD (data.get? "_cron"))
    (htraceparent : Payload.traceparent payload =
      update.traceparent?.getD (Payload.traceparent data)) :
    Stores payload (past.add update) where
  isPayloadEnvelope := henv
  cleanPayload := hclean.trans h.cleanPayload
  steps id := by
    rw [Payload.lookup_stepCache henv, hsteps, Past.add, last_append, ← h.steps,
      Payload.lookup_stepCache h.isPayloadEnvelope]
  progress := by rw [hprogress, Past.add, last_append, h.progress]
  waited := by
    rw [hwaited, Past.add, last_append, h.waited]
    cases update.waited? <;> rfl
  cron := by
    rw [hcron, Past.add, last_append, h.cron]
    cases update.cron? <;> rfl
  traceparent := by
    rw [htraceparent, Past.add, last_append, h.traceparent]
    cases update.traceparent? <;> rfl

private theorem Stores.withRows (h : Stores payload past) (rows : List JobId) :
    Stores payload { past with rows := rows } :=
  ⟨⟨h.isPayloadEnvelope, h.cleanPayload, h.progress, h.waited, h.cron, h.traceparent⟩, h.steps⟩

private theorem stores_enqueued {input : Option Json} {traceparent : Option String} {row : JobId} :
    Stores (Payload.injectTraceContext input traceparent) ⟨input, traceparent, [], [row]⟩ := by
  cases input <;> cases traceparent <;> exact ⟨⟨rfl, rfl, rfl, rfl, rfl, rfl⟩, fun _ => rfl⟩

private theorem Stores.patch {patch : Patch} (h : Stores data past)
    (happly : patch.apply data = some payload) : Stores payload (past.add (.patch patch)) := by
  have hobj := Payload.isObject_of_isPayloadEnvelope h.isPayloadEnvelope
  -- A patch sets one field of the envelope, and none of those that hold the input.
  have hset : ∀ {key : String} {field : Json},
      key ≠ "__bgw" ∧ key ≠ "payload" ∧ key ≠ "payloadUndefined" →
      Payload.isPayloadEnvelope (data.set key field) = true ∧
        Payload.cleanPayload (data.set key field) = Payload.cleanPayload data := by
    intro key field hkey
    rw [Payload.isPayloadEnvelope_set hobj hkey]
    exact ⟨h.isPayloadEnvelope, Payload.cleanPayload_set hobj hkey⟩
  cases patch with
  | checkpoint id output =>
    simp only [Patch.apply, Option.ite_none_right_eq_some, Option.some.injEq] at happly
    obtain ⟨-, rfl⟩ := happly
    have hkey : "steps" ≠ "__bgw" ∧ "steps" ≠ "payload" ∧ "steps" ≠ "payloadUndefined" := by decide
    refine h.add (hset hkey).1 (hset hkey).2 ?_ ?_ ?_ ?_ ?_
    · intro id'
      rw [Payload.extractStepCache_setStep h.isPayloadEnvelope]
      simp only [Update.stored?]
      split <;> simp
    all_goals
      simp [Payload.setStep, Payload.waited, Payload.traceparent, Json.get?_set hobj,
        Update.progress?, Update.waited?, Update.cron?, Update.traceparent?]
  | progress value =>
    simp only [Patch.apply, Option.ite_none_right_eq_some, Option.some.injEq] at happly
    obtain ⟨-, rfl⟩ := happly
    have hkey : "progress" ≠ "__bgw" ∧ "progress" ≠ "payload" ∧ "progress" ≠ "payloadUndefined" := by
      decide
    refine h.add (hset hkey).1 (hset hkey).2 ?_ ?_ ?_ ?_ ?_
    · exact fun id => Payload.extractStepCache_set hobj hkey (by decide)
    all_goals
      simp [Payload.setProgress, Payload.waited, Payload.traceparent, Json.get?_set hobj,
        Update.progress?, Update.waited?, Update.cron?, Update.traceparent?]
  | waited =>
    simp only [Patch.apply, Option.ite_none_right_eq_some, Option.some.injEq] at happly
    obtain ⟨-, rfl⟩ := happly
    have hkey : "waited" ≠ "__bgw" ∧ "waited" ≠ "payload" ∧ "waited" ≠ "payloadUndefined" := by decide
    refine h.add (hset hkey).1 (hset hkey).2 ?_ ?_ ?_ ?_ ?_
    · exact fun id => Payload.extractStepCache_set hobj hkey (by decide)
    all_goals
      simp [Payload.markWaited, Payload.waited, Payload.traceparent, Json.get?_set hobj, Json.isTrue,
        Update.progress?, Update.waited?, Update.cron?, Update.traceparent?]
  | cron metadata =>
    obtain rfl := Option.some.inj happly
    have hkey : "_cron" ≠ "__bgw" ∧ "_cron" ≠ "payload" ∧ "_cron" ≠ "payloadUndefined" := by decide
    refine h.add (hset hkey).1 (hset hkey).2 ?_ ?_ ?_ ?_ ?_
    · exact fun id => Payload.extractStepCache_set hobj hkey (by decide)
    all_goals
      simp [Payload.waited, Payload.traceparent, Json.get?_set hobj, Update.progress?,
        Update.waited?, Update.cron?, Update.traceparent?]

private theorem Stores.continue {progress : Option Json} {traceparent : Option String}
    (h : Stores data past) : Stores (Payload.continueEnvelope data progress traceparent)
      (past.add (.continue progress traceparent)) := by
  have hobj := Payload.isObject_of_isPayloadEnvelope h.isPayloadEnvelope
  have hkept : ∀ key, Payload.IsInputField key →
      (Payload.continueEnvelope data progress traceparent).get? key = data.get? key := by
    intro key hkey
    exact Payload.get?_continueEnvelope key hobj _ _ (hkey.ne (by decide)) (hkey.ne (by decide))
      (hkey.ne (by decide))
  have henv : Payload.isPayloadEnvelope (Payload.continueEnvelope data progress traceparent) =
      Payload.isPayloadEnvelope data :=
    Payload.isPayloadEnvelope_congr (Payload.isObject_continueEnvelope _ _) hkept
  refine h.add (henv.trans h.isPayloadEnvelope) (Payload.cleanPayload_congr hkept) ?_ ?_ ?_ ?_ ?_
  · exact fun id => Payload.extractStepCache_continueEnvelope hobj _ _
  · cases progress <;> cases traceparent <;>
      simp [Payload.continueEnvelope, Json.get?_set, Json.get?_remove, hobj, Update.progress?]
  · exact Payload.waited_continueEnvelope _ _ hobj
  · cases progress <;> cases traceparent <;>
      simp [Payload.continueEnvelope, Json.get?_set, Json.get?_remove, hobj, Update.cron?]
  · cases progress <;> cases traceparent <;>
      simp [Payload.continueEnvelope, Payload.traceparent, Json.get?_set, Json.get?_remove, hobj,
        Update.traceparent?]

/-! ## Runs -/

variable {s s' : State} {e : Event} {pasts : JobId → Past}

/-- Locked rows are as they were read, and have one holder. -/
private structure Inv (s : State) (pasts : JobId → Past) : Prop where
  stores : ∀ row payload, s.rows.get? row = some payload → Stores payload (pasts row)
  own : ∀ row payload, s.rows.get? row = some payload → row ∈ (pasts row).rows
  fresh : ∀ row payload, s.rows.get? row = some payload → row < s.nextRow
  held : ∀ k tx data, s.txs.get? k = some tx → tx.data = some data → s.rows.get? tx.row = some data
  alone : ∀ k k' tx tx', s.txs.get? k = some tx → s.txs.get? k' = some tx' → tx.data.isSome = true →
    tx'.data.isSome = true → tx.row = tx'.row → k = k'

private theorem Inv.erase {k : ℕ} (h : Inv s pasts) : Inv { s with txs := s.txs.erase k } pasts := by
  have hkept {k' : ℕ} {tx : Tx} (hget : (s.txs.erase k).get? k' = some tx) : s.txs.get? k' = some tx :=
    (Table.get?_erase_eq_some.mp hget).2
  constructor
  · exact h.stores
  · exact h.own
  · exact h.fresh
  · intro k' tx data hget
    exact h.held k' tx data (hkept hget)
  · intro k₁ k₂ tx₁ tx₂ hget₁ hget₂
    exact h.alone k₁ k₂ tx₁ tx₂ (hkept hget₁) (hkept hget₂)

private theorem Inv.insertRow (h : Inv s pasts) (hstores : Stores payload past)
    (hown : s.nextRow ∈ past.rows) :
    Inv (s.insertRow payload) (Function.update pasts s.nextRow past) := by
  constructor
  · intro row payload' hget
    rcases Table.get?_insert_eq_some.mp hget with ⟨rfl, rfl⟩ | ⟨hne, hget⟩
    · rw [Function.update_self]
      exact hstores
    · rw [Function.update_of_ne hne]
      exact h.stores row payload' hget
  · intro row payload' hget
    rcases Table.get?_insert_eq_some.mp hget with ⟨rfl, rfl⟩ | ⟨hne, hget⟩
    · rw [Function.update_self]
      exact hown
    · rw [Function.update_of_ne hne]
      exact h.own row payload' hget
  · intro row payload' hget
    change row < s.nextRow + 1
    rcases Table.get?_insert_eq_some.mp hget with ⟨rfl, rfl⟩ | ⟨-, hget⟩
    · exact Nat.lt_succ_self _
    · exact Nat.lt_succ_of_lt (h.fresh row payload' hget)
  · intro k tx data hget hdata
    have hrow := h.held k tx data hget hdata
    have hlt := h.fresh tx.row data hrow
    change (s.rows.insert s.nextRow payload).get? tx.row = some data
    rw [Table.get?_insert_ne (Nat.ne_of_lt hlt)]
    exact hrow
  · exact h.alone

/-- The holder of a row that nobody has continued writes it back. -/
private theorem Inv.commit {k : ℕ} {row : JobId} {patch : Patch} (h : Inv s pasts)
    (hget : s.txs.get? k = some ⟨row, .patch patch, some data⟩)
    (happly : patch.apply data = some payload)
    (htimely : ∀ next payload, s.rows.get? next = some payload → next ≠ row → row ∉ (pasts next).rows) :
    Inv { s with rows := s.rows.insert row payload, txs := s.txs.erase k } (fun next =>
      if row ∈ (pasts next).rows then (pasts next).add (.patch patch) else pasts next) := by
  have hrow : s.rows.get? row = some data := h.held k _ data hget rfl
  have hother : ∀ {k' tx data'}, s.txs.get? k' = some tx → tx.data = some data' → k' ≠ k →
      tx.row ≠ row := by
    intro k' tx data' hget' hdata hne heq
    exact hne (h.alone k' k tx _ hget' hget (by simp [hdata]) rfl heq)
  have herased := h.erase (k := k)
  constructor
  · intro row' payload' hget'
    rcases Table.get?_insert_eq_some.mp hget' with ⟨rfl, rfl⟩ | ⟨hne, hget'⟩
    · rw [if_pos (h.own _ data hrow)]
      exact (h.stores _ data hrow).patch happly
    -- The patch would count for a continuation of the row, of which there is none.
    · rw [if_neg (htimely row' payload' hget' hne)]
      exact h.stores row' payload' hget'
  · intro row' payload' hget'
    rcases Table.get?_insert_eq_some.mp hget' with ⟨rfl, rfl⟩ | ⟨hne, hget'⟩
    · rw [if_pos (h.own _ data hrow)]
      exact h.own _ data hrow
    · rw [if_neg (htimely row' payload' hget' hne)]
      exact h.own row' payload' hget'
  · intro row' payload' hget'
    rcases Table.get?_insert_eq_some.mp hget' with ⟨rfl, rfl⟩ | ⟨-, hget'⟩
    · exact h.fresh _ data hrow
    · exact h.fresh row' payload' hget'
  · intro k' tx data' hget' hdata
    have hheld := herased.held k' tx data' hget' hdata
    obtain ⟨hne, hget'⟩ := Table.get?_erase_eq_some.mp hget'
    rw [Table.get?_insert_ne (hother hget' hdata hne)]
    exact hheld
  · exact herased.alone

/-- A new transaction has read nothing. -/
private theorem Inv.begin {row : JobId} (h : Inv s pasts) :
    Inv { s with txs := s.txs.insert s.nextTx ⟨row, update, none⟩, nextTx := s.nextTx + 1 } pasts := by
  constructor
  · exact h.stores
  · exact h.own
  · exact h.fresh
  · intro k tx data hget hdata
    rcases Table.get?_insert_eq_some.mp hget with ⟨-, rfl⟩ | ⟨-, hget⟩
    · cases hdata
    · exact h.held k tx data hget hdata
  · intro k k' tx tx' hget hget' hdata hdata'
    rcases Table.get?_insert_eq_some.mp hget with ⟨-, rfl⟩ | ⟨-, hget⟩
    · cases hdata
    · rcases Table.get?_insert_eq_some.mp hget' with ⟨-, rfl⟩ | ⟨-, hget'⟩
      · cases hdata'
      · exact h.alone k k' tx tx' hget hget' hdata hdata'

private theorem Inv.lock {k : ℕ} {row : JobId} (h : Inv s pasts)
    (hrow : s.rows.get? row = some payload) (hfree : s.free k row = true) :
    Inv { s with txs := s.txs.insert k ⟨row, update, some payload⟩ } pasts := by
  have hother : ∀ {k' tx}, s.txs.get? k' = some tx → tx.data.isSome = true → k' ≠ k →
      tx.row ≠ row := by
    intro k' tx hget' hdata hne heq
    simp only [State.free, Bool.not_eq_true', Table.any_eq_false_iff] at hfree
    have hfree' := hfree k' tx hget'
    simp [hne, heq, hdata] at hfree'
  constructor
  · exact h.stores
  · exact h.own
  · exact h.fresh
  · intro k' tx data hget' hdata
    rcases Table.get?_insert_eq_some.mp hget' with ⟨-, rfl⟩ | ⟨-, hget'⟩
    · cases hdata
      exact hrow
    · exact h.held k' tx data hget' hdata
  · intro k₁ k₂ tx₁ tx₂ hget₁ hget₂ hdata₁ hdata₂ heq
    rcases Table.get?_insert_eq_some.mp hget₁ with ⟨hk₁, rfl⟩ | ⟨hk₁, hold₁⟩
    · rcases Table.get?_insert_eq_some.mp hget₂ with ⟨hk₂, rfl⟩ | ⟨hk₂, hold₂⟩
      · exact hk₁.trans hk₂.symm
      · exact absurd heq.symm (hother hold₂ hdata₂ hk₂)
    · rcases Table.get?_insert_eq_some.mp hget₂ with ⟨-, rfl⟩ | ⟨-, hold₂⟩
      · exact absurd heq (hother hold₁ hdata₁ hk₁)
      · exact h.alone k₁ k₂ tx₁ tx₂ hold₁ hold₂ hdata₁ hdata₂ heq

private theorem inv_exec (h : Inv s pasts) (htimely : Timely (s, pasts) e)
    (hexec : s.exec e = some s') : Inv s' (note s e s' pasts) := by
  cases e with
  | enqueue input traceparent =>
    obtain rfl := Option.some.inj hexec
    exact h.insertRow stores_enqueued (List.mem_singleton_self _)
  | begin row update =>
    obtain rfl := Option.some.inj hexec
    exact h.begin
  | lock k =>
    simp only [State.exec] at hexec
    split at hexec
    · rename_i row update _
      split at hexec
      · rename_i payload hrow
        simp only [Option.ite_none_right_eq_some, Option.some.injEq] at hexec
        obtain ⟨hfree, rfl⟩ := hexec
        exact h.lock hrow hfree
      · cases hexec
    · cases hexec
  | commit k =>
    simp only [State.exec] at hexec
    split at hexec
    · rename_i row patch data hget
      split at hexec
      · rename_i payload happly
        obtain rfl := Option.some.inj hexec
        simp only [note, hget]
        exact h.commit hget happly (htimely k row patch _ rfl hget)
      · cases hexec
    · rename_i row progress traceparent data hget
      obtain rfl := Option.some.inj hexec
      simp only [note, hget]
      have hrow : s.rows.get? row = some data := h.held k _ data hget rfl
      exact (h.insertRow ((h.stores row data hrow).continue.withRows _) List.mem_cons_self).erase
    · cases hexec
  | rollback k =>
    simp only [State.exec] at hexec
    split at hexec
    · obtain rfl := Option.some.inj hexec
      exact h.erase
    · cases hexec

private theorem inv_reachable (h : system.ReachableWith Timely (s, pasts)) : Inv s pasts := by
  refine h.invariant (I := fun p => Inv p.1 p.2) ?_ ?_
  · rintro ⟨s, pasts⟩ ⟨hinit, -⟩
    cases hinit
    constructor <;> intros <;> simp_all [Table.get?_empty]
  · rintro ⟨s, pasts⟩ e ⟨s', pasts'⟩ - ih htimely hstep
    obtain ⟨hexec, hpasts⟩ := TransitionSystem.observe_step_iff.mp hstep
    simp only at hpasts
    rw [hpasts]
    exact inv_exec ih htimely hexec

/-! ## Ids -/

/-- Every checkpoint is under an id that the driver reads back. -/
def Past.WellFormed (past : Past) : Prop :=
  ∀ id output, .patch (.checkpoint id output) ∈ past.updates → id.isWellFormed = true

private theorem last_congr {α : Type} {f g : Update → Option α} (h : ∀ update ∈ updates, f update = g update) :
    Update.last updates f = Update.last updates g := by
  rw [Update.last, Update.last, List.filterMap_congr h]

private theorem last_eq_none_iff {α : Type} {f : Update → Option α} :
    Update.last updates f = none ↔ ∀ update ∈ updates, f update = none := by
  rw [Update.last, List.getLast?_eq_none_iff, List.filterMap_eq_nil_iff]

/-- Two well-formed ids have different keys. -/
private theorem utf8_inj {id id' : JsString} (hid : id.isWellFormed = true) (hid' : id'.isWellFormed = true)
    (h : id.utf8 = id'.utf8) : id = id' :=
  (JsString.ofString_eq_iff.mpr ⟨hid, rfl⟩).symm.trans (JsString.ofString_eq_iff.mpr ⟨hid', h⟩)

private theorem Stores.reads_iff (h : Stores payload past) : Reads payload past ↔ past.WellFormed := by
  constructor
  · intro hreads id output hmem
    by_contra hnot
    have hnone := hreads.steps id
    rw [JsRecord.get?_eq, if_neg hnot] at hnone
    have hcheckpoint := last_eq_none_iff.mp hnone.symm _ hmem
    simp [Update.checkpoint?] at hcheckpoint
  · intro hwell
    refine ⟨h.toParts, fun id => ?_⟩
    rw [JsRecord.get?_eq]
    split
    -- Two ids that come back have different keys, so the last entry of a key is that of the id.
    · rename_i hid
      rw [h.steps]
      refine last_congr fun update hmem => ?_
      cases update with
      | patch patch =>
        cases patch with
        | checkpoint id' output =>
          have hiff : id.utf8 = id'.utf8 ↔ id = id' :=
            ⟨utf8_inj hid (hwell id' output hmem), fun heq => heq ▸ rfl⟩
          simp only [Update.stored?, Update.checkpoint?, hiff]
        | progress | waited | cron => rfl
      | «continue» => rfl
    -- Nobody finds an id that does not come back, and no checkpoint has one.
    · rename_i hid
      refine (last_eq_none_iff.mpr fun update hmem => ?_).symm
      cases update with
      | patch patch =>
        cases patch with
        | checkpoint id' output =>
          refine if_neg ?_
          rintro rfl
          exact hid (hwell id output hmem)
        | progress | waited | cron => rfl
      | «continue» => rfl

/--
While no patch is written to a row after it was continued, every row reads as its past says if and
only if every acknowledged checkpoint has a well-formed id. A checkpoint that is written to a row
that was continued is missing in the continuation.
-/
theorem envelope_parts_iff (h : system.ReachableWith Timely (s, pasts)) :
    (∀ row payload, s.rows.get? row = some payload →
      (Reads payload (pasts row) ↔ (pasts row).WellFormed)) ∧
    ∀ k row id output data s', s.txs.get? k = some ⟨row, .patch (.checkpoint id output), data⟩ →
      s.exec (.commit k) = some s' → ∀ next ≠ row, row ∈ (pasts next).rows →
        ∀ payload, s.rows.get? next = some payload →
          (Payload.stepCache payload).get? id ≠ some (entry output) →
            s'.rows.get? next = some payload ∧ ¬Reads payload (note s (.commit k) s' pasts next) := by
  have hinv := inv_reachable h
  refine ⟨fun row payload hget => (hinv.stores row payload hget).reads_iff, ?_⟩
  intro k row id output data s' htx hexec next hne hmem payload hget hmissing
  simp only [State.exec, htx] at hexec
  constructor
  -- The commit writes its own row only, but its checkpoint is acknowledged to the logical job.
  · cases data with
    | none => cases hexec
    | some data =>
      simp only at hexec
      split at hexec
      · obtain rfl := Option.some.inj hexec
        rw [Table.get?_insert_ne hne, hget]
      · cases hexec
  · intro hreads
    have hsteps := hreads.steps id
    simp only [note, htx, if_pos hmem, Past.add, last_append, Update.checkpoint?, if_true,
      Option.some_or] at hsteps
    exact hmissing hsteps

namespace ConcurrentTrace

/-- An input with the fields of an envelope. -/
def input : Json :=
  .obj [("__bgw", .num 1), ("steps", .obj [("fetch", .null)]), ("waited", .bool true),
    ("_cron", .str "daily")]

/-- Two checkpoints at once under names that objects inherit, then a continuation of the row. -/
def events : List Event :=
  [.enqueue (some input) (some "00-a-b-01"), .begin 0 (.patch (.cron (.obj [("ts", .str "now")]))),
    .lock 0, .commit 0, .begin 0 (.patch (.checkpoint (.ofName "__proto__") none)),
    .begin 0 (.patch (.checkpoint (.ofName "constructor") (some .null))), .lock 1, .commit 1, .lock 2,
    .commit 2, .begin 0 (.continue (some (.num 50)) none), .lock 3, .commit 3]

/-- A checkpoint under a high surrogate without a low one. -/
def unpaired : List Event :=
  [.enqueue (some .null) none, .begin 0 (.patch (.checkpoint [0xD800] none)), .lock 0, .commit 0]

/-- A checkpoint that waits for the row until the continuation of the row has committed. -/
def late : List Event :=
  [.enqueue (some .null) none, .begin 0 (.continue none none), .lock 0,
    .begin 0 (.patch (.checkpoint (.ofName "rows") none)), .commit 0, .lock 1, .commit 1]

/-- Nobody has continued the row that a patch is written to. -/
def timely (p : State × (JobId → Past)) : Event → Bool
  | .commit k => (p.1.txs.get? k).all fun tx => match tx.update with
    | .patch _ => !p.1.rows.any fun next _ => next ≠ tx.row && tx.row ∈ (p.2 next).rows
    | .continue _ _ => true
  | _ => true

theorem timely_of {p : State × (JobId → Past)} {e : Event} (h : timely p e = true) : Timely p e := by
  rintro k row patch data rfl hget next payload hrow hne hmem
  simp only [timely, hget, Option.all_some, Bool.not_eq_true', Table.any_eq_false_iff] at h
  simpa [hne, hmem] using h next payload hrow

end ConcurrentTrace

/-- Every checkpoint of the row has a well-formed id. -/
private theorem wellFormed_of_all {past : Past} (h : past.updates.all (fun update => match update with
    | .patch (.checkpoint id _) => id.isWellFormed
    | _ => true) = true) : past.WellFormed :=
  fun _ _ hmem => List.all_eq_true.mp h _ hmem

theorem envelope_parts_continued : ∃ (s : State) (pasts : JobId → Past) (payload : Json),
    s.rows.get? 1 = some payload ∧ (pasts 1).updates.length = 4 ∧ Reads payload (pasts 1) := by
  have hinit : system.Init (⟨∅, ∅, 0, 0⟩, fun _ => .start) := ⟨rfl, rfl⟩
  obtain ⟨⟨s, pasts⟩, hreach, htest⟩ := TransitionSystem.exists_reachableWith_of_runWith
    ConcurrentTrace.events (fun p => (p.1.rows.get? 1).isSome && (p.2 1).updates.length = 4 &&
      (p.2 1).updates.all fun update => match update with
        | .patch (.checkpoint id _) => id.isWellFormed
        | _ => true)
    (fun p e (hc : ConcurrentTrace.timely p e = true) => ConcurrentTrace.timely_of hc) hinit (by decide)
  simp only [Bool.and_eq_true, Option.isSome_iff_exists, decide_eq_true_eq] at htest
  obtain ⟨⟨⟨payload, hget⟩, hlength⟩, hwell⟩ := htest
  exact ⟨s, pasts, payload, hget, hlength,
    ((envelope_parts_iff hreach).1 1 payload hget).mpr (wellFormed_of_all hwell)⟩

/-- What a reader of the cache finds, and what was acknowledged. -/
private theorem not_reads {s : State} {pasts : JobId → Past} {row : JobId} {id : JsString}
    (h : (s.rows.get? row).any (fun payload => ((Payload.stepCache payload).get? id).isNone &&
      (Update.last (pasts row).updates (Update.checkpoint? id)).isSome) = true) :
    ∃ payload, s.rows.get? row = some payload ∧ ¬Reads payload (pasts row) := by
  obtain ⟨payload, hget, htest⟩ := (Option.any_eq_true _ _).mp h
  refine ⟨payload, hget, fun hreads => ?_⟩
  rw [hreads.steps] at htest
  cases hlast : Update.last (pasts row).updates (Update.checkpoint? id) <;> simp [hlast] at htest

/-- A checkpoint under an unpaired surrogate, and one of a row that was continued, are not read back. -/
theorem envelope_parts_lost :
    (∃ s pasts payload, system.ReachableWith Timely (s, pasts) ∧ s.rows.get? 0 = some payload ∧
      ¬Reads payload (pasts 0)) ∧
    ∃ s pasts payload, system.Reachable (s, pasts) ∧ s.rows.get? 1 = some payload ∧
      (pasts 1).WellFormed ∧ ¬Reads payload (pasts 1) := by
  have hinit : system.Init (⟨∅, ∅, 0, 0⟩, fun _ => .start) := ⟨rfl, rfl⟩
  constructor
  · obtain ⟨⟨s, pasts⟩, hreach, htest⟩ := TransitionSystem.exists_reachableWith_of_runWith
      ConcurrentTrace.unpaired
      (fun p => (p.1.rows.get? 0).any fun payload => ((Payload.stepCache payload).get? [0xD800]).isNone &&
        (Update.last (p.2 0).updates (Update.checkpoint? [0xD800])).isSome)
      (fun p e (hc : ConcurrentTrace.timely p e = true) => ConcurrentTrace.timely_of hc) hinit (by decide)
    obtain ⟨payload, hget, hreads⟩ := not_reads htest
    exact ⟨s, pasts, payload, hreach, hget, hreads⟩
  · obtain ⟨⟨s, pasts⟩, hreach, htest⟩ := system.exists_reachable_of_run ConcurrentTrace.late
      (fun p => ((p.1.rows.get? 1).any fun payload =>
          ((Payload.stepCache payload).get? (.ofName "rows")).isNone &&
            (Update.last (p.2 1).updates (Update.checkpoint? (.ofName "rows"))).isSome) &&
        (p.2 1).updates.all fun update => match update with
          | .patch (.checkpoint id _) => id.isWellFormed
          | _ => true) hinit (by decide)
    obtain ⟨htest, hwell⟩ := Bool.and_eq_true_iff.mp htest
    obtain ⟨payload, hget, hreads⟩ := not_reads htest
    exact ⟨s, pasts, payload, hreach, hget, wellFormed_of_all hwell, hreads⟩

end Envelope

end BetterGraphileWorker
