-- SUMMARY: The steps of an attempt: work in flight, the step cache and the queue of checkpoint writes, over the runs that start from one envelope.
import Mathlib.Data.List.Nodup
import BetterGraphileWorker.Library.Runs
import BetterGraphileWorker.Worker.Context

/-!
# The step runner

`createStepRunner` over `createPgStepStore`. Three stores change at different turns of
the event loop: the map of pending work, the cache, and the row, which a queue of
writes patches one checkpoint at a time. A step function starts inside the call that
invokes it, and its work is pending from the moment the function has returned. The ids
have no unpaired surrogate, which the driver would store as U+FFFD: the cache of the
attempt would hold the id, and the envelope of the next run another one.
-/

namespace BetterGraphileWorker

@[simp] theorem entry_value (e : StepCacheEntry) : entry e.value = e := by
  cases e <;> rfl

@[simp] theorem value_entry (output : Option Json) : (entry output).value = output := by
  cases output <;> rfl

namespace StepRunner

/-! ## States -/

/-- How far the work of a step has come. -/
inductive Phase where
  /-- `fn()` has not returned. -/
  | starting
  /-- The promise of the function is pending. -/
  | running
  /-- The output is in the queue of checkpoint writes. -/
  | writing (output : Option Json)
  | written (output : Option Json)
  | failed

/-- The function has been invoked and has not settled. -/
def Phase.inFlight : Phase → Bool
  | .starting | .running => true
  | _ => false

def Phase.settled : Phase → Bool
  | .written _ | .failed => true
  | _ => false

/-- The promise that `run` creates for an id. -/
structure Work where
  id : String
  phase : Phase
  /-- The calls that wait for it. -/
  callers : ℕ
  /-- `pending.delete(id)` ran. -/
  removed : Bool

/-- The work of a call that finds nothing cached or pending. -/
def Work.start (id : String) : Work := ⟨id, .starting, 1, false⟩

structure State where
  /-- The envelope in the row of the job. -/
  payload : Json
  cache : String → Option StepCacheEntry
  pending : String → Option ℕ
  works : List Work
  /-- The works whose function is on the stack, innermost first. -/
  starting : List ℕ
  /-- `writes`, with the write that was sent first. -/
  chain : List ℕ
  /-- The first write is in the row, and its answer has not arrived. -/
  committed : Bool
  /-- The id and the wire value of every call that resolved, in this run or an earlier one. -/
  resolved : List (String × Option Json)

/-- A run that starts from the envelope in the row. -/
def State.start (payload : Json) (resolved : List (String × Option Json)) : State where
  payload := payload
  cache := Payload.extractStepCache payload
  pending := fun _ => none
  works := []
  starting := []
  chain := []
  committed := false
  resolved := resolved

namespace State

def modify (s : State) (w : ℕ) (f : Work → Work) : State := { s with works := s.works.modify w f }

def setPhase (s : State) (w : ℕ) (phase : Phase) : State :=
  s.modify w fun work => { work with phase := phase }

/-- A call resolves with what its decoder returns for the wire value, unless that throws. -/
def resolve (s : State) (id : String) (output : Option Json) (decodes : Bool) : State :=
  if decodes then { s with resolved := (id, output) :: s.resolved } else s

/-- `fn()` is called for a new work. -/
def invoke (s : State) (id : String) : State :=
  { s with works := s.works ++ [.start id], starting := s.works.length :: s.starting }

end State

/-! ## Steps -/

inductive Event where
  /-- `run(id, fn, codec)`; `active` is false when `begin` throws for the attempt. -/
  | call (id : String) (active decodes : Bool)
  /-- The innermost function on the stack returned, or threw. -/
  | returned (threw : Bool)
  /-- The promise of a function settled: the encoded output, or none where it, the codec or
  `serializeStepOutput` failed. -/
  | finish (w : ℕ) (output : Option (Option Json))
  /-- The statement of the first write patched the row. -/
  | commit
  /-- The first write resolved. -/
  | ack
  /-- The first write rejected. -/
  | fail
  /-- The `finally` of a settled work. -/
  | remove (w : ℕ)
  /-- One caller of a settled work continues. -/
  | settle (w : ℕ) (decodes : Bool)
  /-- The attempt is over, and a later run starts from the row. -/
  | restart

/-- `run`, up to its first `await`. -/
def call (s : State) (id : String) (active decodes : Bool) : State :=
  if !active || id = "" then s
  else match s.cache id with
    | some cached => s.resolve id cached.value decodes
    | none => match s.pending id with
      | some w => s.modify w fun work => { work with callers := work.callers + 1 }
      | none => s.invoke id

/-- The rest of the synchronous part of `run`, once `fn()` has returned. -/
def returned (s : State) (threw : Bool) : Option State :=
  match s.starting with
  | [] => none
  | w :: rest => (s.works[w]?).map fun work =>
      { s.setPhase w (if threw then .failed else .running) with
        starting := rest, pending := fun id => if id = work.id then some w else s.pending id }

def finish (s : State) (w : ℕ) (output : Option (Option Json)) : Option State :=
  match s.works[w]? with
  | some ⟨_, .running, _, _⟩ => match output with
      | some output => some { s.setPhase w (.writing output) with chain := s.chain ++ [w] }
      | none => some (s.setPhase w .failed)
  | _ => none

/-- The first write of the queue, with its id and its output. -/
def State.write (s : State) : Option (ℕ × String × Option Json) :=
  match s.chain with
  | [] => none
  | w :: _ => match s.works[w]? with
    | some ⟨id, .writing output, _, _⟩ => some (w, id, output)
    | _ => none

/-- `writeCheckpoint`. -/
def commit (s : State) : Option State :=
  s.write.bind fun (_, id, output) =>
    if s.committed then none
    else some { s with
      payload := Payload.setStep s.payload id (entry output).toJson, committed := true }

def ack (s : State) : Option State :=
  s.write.bind fun (w, id, output) =>
    if s.committed then
      some { s.setPhase w (.written output) with
        chain := s.chain.tail, committed := false
        cache := fun id' => if id' = id then some (entry output) else s.cache id' }
    else none

def fail (s : State) : Option State :=
  s.write.map fun (w, _, _) =>
    { s.setPhase w .failed with chain := s.chain.tail, committed := false }

def remove (s : State) (w : ℕ) : Option State :=
  match s.works[w]? with
  | some work =>
    if work.phase.settled && !work.removed then
      some { s.modify w fun work => { work with removed := true } with
        pending := fun id => if id = work.id then none else s.pending id }
    else none
  | none => none

def settle (s : State) (w : ℕ) (decodes : Bool) : Option State :=
  match s.works[w]? with
  | some work =>
    if work.removed && decide (0 < work.callers) then
      let s' := s.modify w fun work => { work with callers := work.callers - 1 }
      match work.phase with
      | .written output => some (s'.resolve work.id output decodes)
      | _ => some s'
    else none
  | none => none

/-- While a function is on the stack, only calls, its return and the database take steps. -/
def step (s : State) : Event → Option State
  | .call id active decodes => some (call s id active decodes)
  | .returned threw => returned s threw
  | .commit => commit s
  | .restart => some (.start s.payload s.resolved)
  | .finish w output => if s.starting = [] then finish s w output else none
  | .ack => if s.starting = [] then ack s else none
  | .fail => if s.starting = [] then fail s else none
  | .remove w => if s.starting = [] then remove s w else none
  | .settle w decodes => if s.starting = [] then settle s w decodes else none

/-- Attempts of a job whose envelope the worker accepts. -/
def system : TransitionSystem State Event where
  Init s := ∃ payload, Payload.isPayloadEnvelope payload = true ∧ s = .start payload []
  step := step

/-! ## The condition and the property -/

/-- `w` is the work of this record. -/
def State.Has (s : State) (w : ℕ) (work : Work) : Prop := s.works[w]? = some work

/-- No call for an id arrives while a function of that id is on the stack. -/
def Fresh (s : State) : Event → Prop
  | .call id active _ => active = true → ∀ w ∈ s.starting, ∀ work, s.Has w work → work.id ≠ id
  | _ => True

/-- The answers to the first writes of the queue. -/
def answers (succeed : List Bool) : List Event :=
  succeed.flatMap fun success => if success then [.commit, .ack] else [.fail]

/-- What callers of `step.run` rely on. -/
structure Honest (s : State) : Prop where
  /-- At most one function of an id is in flight. -/
  singleFlight : ∀ w w' work work', s.Has w work → s.Has w' work' →
    work.phase.inFlight = true → work'.phase.inFlight = true → work.id = work'.id → w = w'
  /-- A call resolved with the value that the cache and the row hold. -/
  persisted : ∀ id output, (id, output) ∈ s.resolved →
    s.cache id = some (entry output) ∧
      Payload.extractStepCache s.payload id = some (entry output)
  sameValue : ∀ id output output', (id, output) ∈ s.resolved → (id, output') ∈ s.resolved →
    output = output'
  notAgain : ∀ id output, (id, output) ∈ s.resolved → ∀ active decodes,
    (call s id active decodes).works = s.works
  /-- After failures only, with no work of the id pending, the next call invokes its function. -/
  again : ∀ w work, s.Has w work →
    (∀ w' work', s.Has w' work' → work'.id = work.id →
      work'.phase = .failed ∧ work'.removed = true) →
    ∀ decodes, (call s work.id true decodes).works = s.works ++ [.start work.id]
  /-- A failed work is not pending any more when its callers hear of the failure. -/
  told : ∀ w work, s.Has w work → ∀ decodes, (settle s w decodes).isSome = true →
    s.pending work.id ≠ some w
  queued : ∀ w work output, s.Has w work → work.phase = .writing output → w ∈ s.chain
  /-- Whatever the writes before it in the queue do, a checkpoint comes to its turn. -/
  unblocked : s.starting = [] → s.committed = false →
    ∀ before w after succeed, s.chain = before ++ w :: after → succeed.length = before.length →
      ∃ s', system.run s (answers succeed) = some s' ∧ s'.chain = w :: after ∧
        s'.committed = false ∧ s'.works[w]? = s.works[w]?

/-! ## The invariant -/

/-- The work failed, and it is not pending any more. -/
def Work.Gone (work : Work) : Prop := work.phase = .failed ∧ work.removed = true

/-- Where the stores keep a work. -/
structure Tracked (s : State) (w : ℕ) (work : Work) : Prop where
  named : work.id ≠ ""
  starting : w ∈ s.starting ↔ work.phase = .starting
  pending : s.pending work.id = some w ↔ work.removed = false ∧ work.phase ≠ .starting
  removed : work.removed = true → work.phase.settled = true
  chain : w ∈ s.chain ↔ ∃ output, work.phase = .writing output
  written : ∀ output, work.phase = .written output → s.cache work.id = some (entry output)

structure Inv (s : State) : Prop where
  envelope : Payload.isPayloadEnvelope s.payload = true
  cached : ∀ id e, s.cache id = some e → Payload.extractStepCache s.payload id = some e
  resolved : ∀ id output, (id, output) ∈ s.resolved → s.cache id = some (entry output)
  tracked : ∀ w work, s.Has w work → Tracked s w work
  /-- The works of an id are gone, all but one. -/
  alone : ∀ w w' work work', s.Has w work → s.Has w' work' → work.id = work'.id →
    ¬work.Gone → ¬work'.Gone → w = w'
  /-- The cache holds what the run started from and what works of this run wrote. -/
  source : ∀ w work, s.Has w work → (s.cache work.id).isSome = true →
    ∃ w' work' output, s.Has w' work' ∧ work'.id = work.id ∧ work'.phase = .written output
  starts : ∀ w ∈ s.starting, ∃ work, s.Has w work
  pends : ∀ id w, s.pending id = some w → ∃ work, s.Has w work ∧ work.id = id
  writes : ∀ w ∈ s.chain, ∃ work, s.Has w work
  startingNodup : s.starting.Nodup
  chainNodup : s.chain.Nodup
  committed : s.committed = true → ∃ w rest work output, s.chain = w :: rest ∧ s.Has w work ∧
    work.phase = .writing output ∧
    Payload.extractStepCache s.payload work.id = some (entry output)

/-! ## What a step changes -/

section
variable {s s' : State} {w : ℕ} {work before after : Work} {id : String}

theorem State.Has.unique {work' : Work} (h : s.Has w work) (h' : s.Has w work') : work = work' :=
  Option.some.inj (h.symm.trans h')

theorem State.Has.lt (h : s.Has w work) : w < s.works.length :=
  (List.getElem?_eq_some_iff.mp h).1

/-- One work turns from `before` into `after`, and the stores change for no other work. -/
structure Turns (s s' : State) (w : ℕ) (before after : Work) : Prop where
  has : s.Has w before
  has' : ∀ i work, s'.Has i work ↔ i = w ∧ work = after ∨ i ≠ w ∧ s.Has i work
  id : after.id = before.id
  payload : s'.payload = s.payload
  resolved : s'.resolved = s.resolved
  starting : ∀ i, i ≠ w → (i ∈ s'.starting ↔ i ∈ s.starting)
  pending : ∀ id i, i ≠ w → (s'.pending id = some i ↔ s.pending id = some i)
  chain : ∀ i, i ≠ w → (i ∈ s'.chain ↔ i ∈ s.chain)

theorem has_modify {f : Work → Work} (h : s.Has w work) {i : ℕ} {work' : Work} :
    (s.modify w f).Has i work' ↔ i = w ∧ work' = f work ∨ i ≠ w ∧ s.Has i work' := by
  unfold State.Has at *
  rw [State.modify]
  by_cases hi : i = w
  · rw [hi, List.getElem?_modify_eq, h]
    simp [eq_comm]
  · rw [List.getElem?_modify_ne _ _ (Ne.symm hi)]
    simp [hi]

theorem Turns.now (h : Turns s s' w before after) : s'.Has w after :=
  (h.has' w after).mpr (.inl ⟨rfl, rfl⟩)

theorem Turns.kept (h : Turns s s' w before after) {i : ℕ} (hi : i ≠ w) (hwork : s.Has i work) :
    s'.Has i work :=
  (h.has' i work).mpr (.inr ⟨hi, hwork⟩)

/-- What has to be shown of the work that turns. -/
structure Turned (s s' : State) (w : ℕ) (before after : Work) : Prop where
  gone : before.Gone → after.Gone
  written : ∀ output, before.phase = .written output → after.phase = .written output
  cache : ∀ id, s'.cache id = s.cache id ∨
    id = before.id ∧ ∃ output, after.phase = .written output ∧ s.cache id = none ∧
      s'.cache id = some (entry output) ∧
      Payload.extractStepCache s.payload id = some (entry output)
  pends : ∀ id, s'.pending id = some w → id = before.id
  startingNodup : s'.starting.Nodup
  chainNodup : s'.chain.Nodup
  committed : s'.committed = true → s.committed = true ∧
    (∀ output, before.phase = .writing output → after.phase = .writing output) ∧
    ∀ i rest, s.chain = i :: rest → ∃ rest', s'.chain = i :: rest'
  tracked : Tracked s' w after

theorem Turned.of_unsettled (h : before.phase.settled = false)
    (hcache : ∀ id, s'.cache id = s.cache id ∨
      id = before.id ∧ ∃ output, after.phase = .written output ∧ s.cache id = none ∧
        s'.cache id = some (entry output) ∧
        Payload.extractStepCache s.payload id = some (entry output))
    (hpends : ∀ id, s'.pending id = some w → id = before.id) (hstarting : s'.starting.Nodup)
    (hchain : s'.chain.Nodup)
    (hcommitted : s'.committed = true → s.committed = true ∧
      (∀ output, before.phase = .writing output → after.phase = .writing output) ∧
      ∀ i rest, s.chain = i :: rest → ∃ rest', s'.chain = i :: rest')
    (htracked : Tracked s' w after) : Turned s s' w before after := by
  refine ⟨fun hgone => ?_, fun output hphase => ?_, hcache, hpends, hstarting, hchain, hcommitted,
    htracked⟩
  · rw [hgone.1] at h
    cases h
  · rw [hphase] at h
    cases h

theorem Inv.turn (hi : Inv s) (ht : Turns s s' w before after) (hw : Turned s s' w before after) :
    Inv s' where
  envelope := by
    rw [ht.payload]
    exact hi.envelope
  cached := by
    intro id e h
    rw [ht.payload]
    cases hw.cache id with
    | inl hsame => exact hi.cached id e (hsame ▸ h)
    | inr hnew =>
      obtain ⟨_, output, _, _, hcache, hextract⟩ := hnew
      cases hcache.symm.trans h
      exact hextract
  resolved := by
    intro id output h
    rw [ht.resolved] at h
    have hcached := hi.resolved id output h
    cases hw.cache id with
    | inl hsame => exact hsame.trans hcached
    | inr hnew =>
      obtain ⟨_, _, _, hnone, _⟩ := hnew
      cases hnone.symm.trans hcached
  tracked := by
    intro i work h
    cases (ht.has' i work).mp h with
    | inl h => rw [h.1, h.2]; exact hw.tracked
    | inr h =>
      obtain ⟨hne, h⟩ := h
      have htracked := hi.tracked i work h
      refine ⟨htracked.named, ?_, ?_, htracked.removed, ?_, ?_⟩
      · exact (ht.starting i hne).trans htracked.starting
      · exact (ht.pending work.id i hne).trans htracked.pending
      · exact (ht.chain i hne).trans htracked.chain
      · intro output hphase
        have hcached := htracked.written output hphase
        cases hw.cache work.id with
        | inl hsame => exact hsame.trans hcached
        | inr hnew =>
          obtain ⟨_, _, _, hnone, _⟩ := hnew
          cases hnone.symm.trans hcached
  alone := by
    -- the work that turned was not gone before if it is not gone now
    have hback : ∀ i work, s'.Has i work → ¬work.Gone →
        ∃ work', s.Has i work' ∧ work'.id = work.id ∧ ¬work'.Gone := by
      intro i work h hgone
      cases (ht.has' i work).mp h with
      | inl h =>
        rw [h.1]
        rw [h.2] at hgone ⊢
        exact ⟨before, ht.has, ht.id.symm, fun hb => hgone (hw.gone hb)⟩
      | inr h => exact ⟨work, h.2, rfl, hgone⟩
    intro i j work work' hwork hwork' hid hgone hgone'
    obtain ⟨old, hold, holdid, holdgone⟩ := hback i work hwork hgone
    obtain ⟨old', hold', holdid', holdgone'⟩ := hback j work' hwork' hgone'
    exact hi.alone i j old old' hold hold' (by rw [holdid, holdid', hid]) holdgone holdgone'
  source := by
    intro i work h hcached
    have hold : ∃ j old, s.Has j old ∧ old.id = work.id := by
      cases (ht.has' i work).mp h with
      | inl h => exact ⟨w, before, ht.has, by rw [h.2, ht.id]⟩
      | inr h => exact ⟨i, work, h.2, rfl⟩
    cases hw.cache work.id with
    | inl hsame =>
      obtain ⟨j, old, hold, holdid⟩ := hold
      rw [hsame, ← holdid] at hcached
      obtain ⟨k, source, output, hsource, hid, hphase⟩ := hi.source j old hold hcached
      by_cases hk : k = w
      · subst hk
        cases hsource.unique ht.has
        exact ⟨k, after, output, ht.now, by rw [ht.id, hid, holdid], hw.written output hphase⟩
      · exact ⟨k, source, output, ht.kept hk hsource, hid.trans holdid, hphase⟩
    | inr hnew =>
      obtain ⟨hid, output, hphase, _⟩ := hnew
      exact ⟨w, after, output, ht.now, ht.id.trans hid.symm, hphase⟩
  starts := by
    intro i h
    by_cases hne : i = w
    · exact ⟨after, hne ▸ ht.now⟩
    · obtain ⟨work, hwork⟩ := hi.starts i ((ht.starting i hne).mp h)
      exact ⟨work, ht.kept hne hwork⟩
  pends := by
    intro id i h
    by_cases hne : i = w
    · subst hne
      exact ⟨after, ht.now, ht.id.trans (hw.pends id h).symm⟩
    · obtain ⟨work, hwork, hid⟩ := hi.pends id i ((ht.pending id i hne).mp h)
      exact ⟨work, ht.kept hne hwork, hid⟩
  writes := by
    intro i h
    by_cases hne : i = w
    · exact ⟨after, hne ▸ ht.now⟩
    · obtain ⟨work, hwork⟩ := hi.writes i ((ht.chain i hne).mp h)
      exact ⟨work, ht.kept hne hwork⟩
  startingNodup := hw.startingNodup
  chainNodup := hw.chainNodup
  committed := by
    intro h
    obtain ⟨hcommitted, hwriting, hchain⟩ := hw.committed h
    obtain ⟨i, rest, work, output, hhead, hwork, hphase, hextract⟩ := hi.committed hcommitted
    obtain ⟨rest', hhead'⟩ := hchain i rest hhead
    rw [ht.payload]
    by_cases hne : i = w
    · subst hne
      cases hwork.unique ht.has
      exact ⟨i, rest', after, output, hhead', ht.now, hwriting output hphase, ht.id ▸ hextract⟩
    · exact ⟨i, rest', work, output, hhead', ht.kept hne hwork, hphase, hextract⟩

/-! ## Steps keep the invariant -/

theorem Inv.start {payload : Json} {resolved : List (String × Option Json)}
    (henv : Payload.isPayloadEnvelope payload = true)
    (hresolved : ∀ id output, (id, output) ∈ resolved →
      Payload.extractStepCache payload id = some (entry output)) :
    Inv (.start payload resolved) := by
  constructor <;> simp_all [State.start, State.Has]
  exact hresolved

/-- Calls come and go without a change of the work they wait for. -/
theorem Inv.callers (f : ℕ → ℕ) (hi : Inv s) (hwork : s.Has w work) :
    Inv (s.modify w fun work => { work with callers := f work.callers }) := by
  have htracked := hi.tracked w work hwork
  have ht : Turns s (s.modify w fun work => { work with callers := f work.callers }) w work
      { work with callers := f work.callers } :=
    ⟨hwork, fun _ _ => has_modify hwork, rfl, rfl, rfl, fun _ _ => .rfl, fun _ _ _ => .rfl,
      fun _ _ => .rfl⟩
  apply hi.turn ht
  · refine ⟨id, fun _ => id, fun _ => .inl rfl, ?_, hi.startingNodup, hi.chainNodup, ?_, ?_⟩
    · intro id h
      obtain ⟨work', hwork', hid⟩ := hi.pends id w h
      rw [← hid, hwork'.unique hwork]
    · intro h
      exact ⟨h, fun _ => id, fun _ rest hchain => ⟨rest, hchain⟩⟩
    · exact ⟨htracked.named, htracked.starting, htracked.pending, htracked.removed,
        htracked.chain, htracked.written⟩

theorem Inv.resolve {output : Option Json} {decodes : Bool} (hi : Inv s)
    (hcache : s.cache id = some (entry output)) : Inv (s.resolve id output decodes) := by
  unfold State.resolve
  split
  · refine ⟨hi.envelope, hi.cached, ?_, fun w work h => ?_, hi.alone, hi.source, hi.starts,
      hi.pends, hi.writes, hi.startingNodup, hi.chainNodup, hi.committed⟩
    · intro id' output' h
      cases List.mem_cons.mp h with
      | inl h => cases h; exact hcache
      | inr h => exact hi.resolved id' output' h
    · have htracked := hi.tracked w work h
      exact ⟨htracked.named, htracked.starting, htracked.pending, htracked.removed,
        htracked.chain, htracked.written⟩
  · exact hi

theorem has_invoke {i : ℕ} : (s.invoke id).Has i work ↔
    i = s.works.length ∧ work = .start id ∨ s.Has i work := by
  unfold State.Has State.invoke
  dsimp only
  constructor
  · intro h
    rw [List.getElem?_append] at h
    split at h
    · exact .inr h
    · rename_i hlt
      obtain ⟨hi, hwork⟩ := List.getElem?_eq_some_iff.mp h
      rw [List.length_singleton] at hi
      refine .inl ⟨by omega, ?_⟩
      simpa [eq_comm] using hwork
  · intro h
    cases h with
    | inl h =>
      rw [h.1, h.2]
      simp
    | inr h =>
      have hlt : i < s.works.length := State.Has.lt h
      rwa [List.getElem?_append_left hlt]

/-- A function is invoked when every work of its id is gone. -/
theorem Inv.invoke (hi : Inv s) (hid : id ≠ "") (hcache : s.cache id = none)
    (hpending : s.pending id = none)
    (hgone : ∀ w work, s.Has w work → work.id = id → work.Gone) : Inv (s.invoke id) where
  envelope := hi.envelope
  cached := hi.cached
  resolved := hi.resolved
  tracked := by
    intro i work h
    have hold : ∀ i work, s.Has i work → i ≠ s.works.length := fun i work h => Nat.ne_of_lt h.lt
    cases has_invoke.mp h with
    | inl h =>
      rw [h.1, h.2]
      refine ⟨hid, ⟨fun _ => rfl, fun _ => List.mem_cons_self⟩, ?_, nofun, ?_, nofun⟩
      · have hnone : (s.invoke id).pending id = none := hpending
        simp [Work.start, hnone]
      · refine ⟨fun h => ?_, nofun⟩
        obtain ⟨work', hwork'⟩ := hi.writes _ h
        exact absurd rfl (hold _ _ hwork')
    | inr h =>
      have htracked := hi.tracked i work h
      refine ⟨htracked.named, ?_, htracked.pending, htracked.removed, htracked.chain,
        htracked.written⟩
      rw [← htracked.starting]
      exact List.mem_cons.trans (or_iff_right (hold i work h))
  alone := by
    intro i j work work' h h' heq hlive hlive'
    cases has_invoke.mp h with
    | inl h =>
      cases has_invoke.mp h' with
      | inl h' => exact h.1.trans h'.1.symm
      | inr h' => exact absurd (hgone j work' h' (heq.symm.trans (congrArg Work.id h.2))) hlive'
    | inr h =>
      cases has_invoke.mp h' with
      | inl h' => exact absurd (hgone i work h (heq.trans (congrArg Work.id h'.2))) hlive
      | inr h' => exact hi.alone i j work work' h h' heq hlive hlive'
  source := by
    intro i work h hcached
    cases has_invoke.mp h with
    | inl h =>
      have hnone : s.cache work.id = none := by rw [h.2]; exact hcache
      have hcached : (s.cache work.id).isSome = true := hcached
      simp [hnone] at hcached
    | inr h =>
      obtain ⟨j, source, output, hsource, hrest⟩ := hi.source i work h hcached
      exact ⟨j, source, output, has_invoke.mpr (.inr hsource), hrest⟩
  starts := by
    intro i h
    cases List.mem_cons.mp h with
    | inl h => exact ⟨.start id, has_invoke.mpr (.inl ⟨h, rfl⟩)⟩
    | inr h =>
      obtain ⟨work, hwork⟩ := hi.starts i h
      exact ⟨work, has_invoke.mpr (.inr hwork)⟩
  pends := by
    intro id' i h
    obtain ⟨work, hwork, hw⟩ := hi.pends id' i h
    exact ⟨work, has_invoke.mpr (.inr hwork), hw⟩
  writes := by
    intro i h
    obtain ⟨work, hwork⟩ := hi.writes i h
    exact ⟨work, has_invoke.mpr (.inr hwork)⟩
  startingNodup := by
    refine List.nodup_cons.mpr ⟨fun h => ?_, hi.startingNodup⟩
    obtain ⟨work, hwork⟩ := hi.starts _ h
    exact absurd hwork.lt (Nat.lt_irrefl _)
  chainNodup := hi.chainNodup
  committed := by
    intro h
    obtain ⟨i, rest, work, output, hchain, hwork, hrest⟩ := hi.committed h
    exact ⟨i, rest, work, output, hchain, has_invoke.mpr (.inr hwork), hrest⟩

/-- A work that is not gone is on the stack, pending or cached. -/
theorem Inv.gone_of_not (hi : Inv s) (hwork : s.Has w work) (hcache : s.cache work.id = none)
    (hpending : s.pending work.id = none) (hstarting : w ∉ s.starting) : work.Gone := by
  have htracked := hi.tracked w work hwork
  have hphase : work.phase ≠ .starting := fun h => hstarting (htracked.starting.mpr h)
  have hremoved : work.removed = true := by
    by_contra h
    have := htracked.pending.mpr ⟨by simpa using h, hphase⟩
    simp [hpending] at this
  refine ⟨?_, hremoved⟩
  have hsettled := htracked.removed hremoved
  cases hp : work.phase with
  | written output =>
    have := htracked.written output hp
    simp [hcache] at this
  | failed => rfl
  | _ => simp [hp, Phase.settled] at hsettled

theorem Inv.call {active decodes : Bool} (hi : Inv s)
    (hfresh : Fresh s (.call id active decodes)) : Inv (call s id active decodes) := by
  unfold StepRunner.call
  split
  · exact hi
  · rename_i hbegin
    simp only [Bool.or_eq_true, Bool.not_eq_true', decide_eq_true_eq, not_or,
      Bool.not_eq_false] at hbegin
    cases hcache : s.cache id with
    | some cached =>
      apply hi.resolve
      simp [hcache]
    | none =>
      cases hpending : s.pending id with
      | some w =>
        obtain ⟨work, hwork, _⟩ := hi.pends id w hpending
        exact hi.callers (· + 1) hwork
      | none =>
        apply hi.invoke hbegin.2 hcache hpending
        intro w work hwork hid
        subst hid
        apply hi.gone_of_not hwork hcache hpending
        intro h
        exact hfresh hbegin.1 w h work hwork rfl

/-- The pending work of an id is the only one that is not gone. -/
theorem Inv.eq_of_pending (hi : Inv s) (hwork : s.Has w work) (hlive : ¬work.Gone) {i : ℕ}
    (hpending : s.pending work.id = some i) : i = w := by
  obtain ⟨work', hwork', hid⟩ := hi.pends _ _ hpending
  have hremoved := ((hi.tracked i work' hwork').pending.mp (hid ▸ hpending)).1
  apply hi.alone i w work' work hwork' hwork hid _ hlive
  intro hgone
  cases hremoved.symm.trans hgone.2

theorem Inv.id_of_pending (hi : Inv s) (hwork : s.Has w work) (h : s.pending id = some w) :
    id = work.id := by
  obtain ⟨work', hwork', hid⟩ := hi.pends id w h
  rw [← hid, hwork'.unique hwork]

theorem Inv.not_removed (hi : Inv s) (hwork : s.Has w work) (h : work.phase.settled = false) :
    work.removed = false := by
  cases hr : work.removed with
  | false => rfl
  | true =>
    have hsettled := (hi.tracked w work hwork).removed hr
    cases h.symm.trans hsettled

theorem Inv.returned {threw : Bool} (hi : Inv s) (h : StepRunner.returned s threw = some s') :
    Inv s' := by
  unfold StepRunner.returned at h
  split at h
  · cases h
  · rename_i w rest hstarting
    obtain ⟨work, hwork, h⟩ := Option.map_eq_some_iff.mp h
    replace hwork : s.Has w work := hwork
    have htracked := hi.tracked w work hwork
    have hphase : work.phase = .starting := htracked.starting.mp (by simp [hstarting])
    have hlive : ¬work.Gone := by simp [Work.Gone, hphase]
    have hremoved := hi.not_removed hwork (by rw [hphase]; rfl)
    have hnodup := hi.startingNodup
    rw [hstarting, List.nodup_cons] at hnodup
    have hsame : ∀ id i, i ≠ w →
        ((if id = work.id then some w else s.pending id) = some i ↔ s.pending id = some i) := by
      intro id i hne
      split
      · rename_i hid
        refine ⟨fun h => absurd (Option.some.inj h).symm hne, fun h => ?_⟩
        exact absurd (hi.eq_of_pending hwork hlive (hid ▸ h)) hne
      · rfl
    let after : Work := { work with phase := if threw then .failed else .running }
    have hafter : after.phase = .failed ∨ after.phase = .running := by cases threw <;> simp [after]
    have ht : Turns s s' w work after := by
      cases h
      refine ⟨hwork, fun _ _ => has_modify hwork, rfl, rfl, rfl, ?_, hsame, fun _ _ => .rfl⟩
      intro i hne
      rw [hstarting]
      exact (List.mem_cons.trans (or_iff_right hne)).symm
    apply hi.turn ht
    · cases h
      apply Turned.of_unsettled (by rw [hphase]; rfl)
      · exact fun _ => .inl rfl
      · intro id h
        dsimp only at h
        split at h
        · assumption
        · exact hi.id_of_pending hwork h
      · exact hnodup.2
      · exact hi.chainNodup
      · intro h
        refine ⟨h, fun output h => ?_, fun _ rest hchain => ⟨rest, hchain⟩⟩
        cases hphase.symm.trans h
      · have hstill : after.phase ≠ .starting := by
          cases hafter with
          | inl hf => rw [hf]; nofun
          | inr hr => rw [hr]; nofun
        have hwriting : ¬∃ output, work.phase = .writing output := by simp [hphase]
        have hnot : ¬∃ output, after.phase = .writing output := by
          cases hafter with
          | inl hf => simp [hf]
          | inr hr => simp [hr]
        refine ⟨htracked.named, iff_of_false hnodup.1 hstill,
          iff_of_true (if_pos rfl) ⟨hremoved, hstill⟩, fun h => ?_,
          htracked.chain.trans (iff_of_false hwriting hnot), fun output h => ?_⟩
        · cases hremoved.symm.trans h
        · cases hafter with
          | inl hf => cases hf.symm.trans h
          | inr hr => cases hr.symm.trans h

theorem Inv.finish {output : Option (Option Json)} (hi : Inv s)
    (h : StepRunner.finish s w output = some s') : Inv s' := by
  unfold StepRunner.finish at h
  split at h
  · rename_i id callers removed hwork
    replace hwork : s.Has w ⟨id, .running, callers, removed⟩ := hwork
    have htracked := hi.tracked w _ hwork
    have hremoved := hi.not_removed hwork rfl
    have hstarting : w ∉ s.starting := fun h => nomatch htracked.starting.mp h
    have hpending := htracked.pending.mpr ⟨hremoved, nofun⟩
    have hchain : w ∉ s.chain := fun h => nomatch htracked.chain.mp h
    split at h
    · rename_i output
      have ht : Turns s s' w ⟨id, .running, callers, removed⟩
          ⟨id, .writing output, callers, removed⟩ := by
        cases h
        refine ⟨hwork, fun _ _ => has_modify hwork, rfl, rfl, rfl, fun _ _ => .rfl,
          fun _ _ _ => .rfl, ?_⟩
        intro i hne
        simp [hne]
      apply hi.turn ht
      · cases h
        apply Turned.of_unsettled rfl
        · exact fun _ => .inl rfl
        · exact fun id h => hi.id_of_pending hwork h
        · exact hi.startingNodup
        · exact List.nodup_append_comm.mp (List.nodup_cons.mpr ⟨hchain, hi.chainNodup⟩)
        · intro h
          refine ⟨h, nofun, fun i rest hhead => ⟨rest ++ [w], ?_⟩⟩
          simp [hhead]
        · refine ⟨htracked.named, iff_of_false hstarting nofun,
            iff_of_true hpending ⟨hremoved, nofun⟩, fun h => ?_,
            iff_of_true (by simp) ⟨output, rfl⟩, nofun⟩
          cases hremoved.symm.trans h
    · have ht : Turns s s' w ⟨id, .running, callers, removed⟩ ⟨id, .failed, callers, removed⟩ := by
        cases h
        exact ⟨hwork, fun _ _ => has_modify hwork, rfl, rfl, rfl, fun _ _ => .rfl,
          fun _ _ _ => .rfl, fun _ _ => .rfl⟩
      apply hi.turn ht
      · cases h
        apply Turned.of_unsettled rfl
        · exact fun _ => .inl rfl
        · exact fun id h => hi.id_of_pending hwork h
        · exact hi.startingNodup
        · exact hi.chainNodup
        · exact fun h => ⟨h, nofun, fun i rest hhead => ⟨rest, hhead⟩⟩
        · exact ⟨htracked.named, iff_of_false hstarting nofun,
            iff_of_true hpending ⟨hremoved, nofun⟩, fun _ => rfl, iff_of_false hchain nofun, nofun⟩
  · cases h

theorem write_eq_some {output : Option Json} (h : s.write = some (w, id, output)) :
    ∃ rest work, s.chain = w :: rest ∧ s.Has w work ∧ work.id = id ∧
      work.phase = .writing output := by
  unfold State.write at h
  split at h
  · cases h
  · rename_i v rest hchain
    split at h
    · rename_i hwork
      cases h
      exact ⟨rest, _, hchain, hwork, rfl, rfl⟩
    · cases h

/-- The cache has no entry for an id whose checkpoint is still in the queue. -/
theorem Inv.cache_of_writing (hi : Inv s) (hwork : s.Has w work) {output : Option Json}
    (hphase : work.phase = .writing output) : s.cache work.id = none := by
  by_contra hcached
  obtain ⟨i, source, output', hsource, hid, hsphase⟩ :=
    hi.source w work hwork (Option.isSome_iff_ne_none.mpr hcached)
  have hlive : ¬source.Gone := by simp [Work.Gone, hsphase]
  have hlive' : ¬work.Gone := by simp [Work.Gone, hphase]
  have heq := hi.alone i w source work hsource hwork hid hlive hlive'
  subst heq
  cases hsource.unique hwork
  cases hphase.symm.trans hsphase

theorem Inv.commit (hi : Inv s) (h : StepRunner.commit s = some s') : Inv s' := by
  unfold StepRunner.commit at h
  obtain ⟨⟨w, id, output⟩, hwrite, h⟩ := Option.bind_eq_some_iff.mp h
  obtain ⟨rest, work, hchain, hwork, hid, hphase⟩ := write_eq_some hwrite
  subst hid
  dsimp only at h
  split at h
  · cases h
  · cases h
    have hextract : ∀ id, Payload.extractStepCache
        (Payload.setStep s.payload work.id (entry output).toJson) id =
          if id = work.id then some (entry output) else Payload.extractStepCache s.payload id :=
      fun _ => Payload.extractStepCache_setStep hi.envelope (entry output)
    have hnone := hi.cache_of_writing hwork hphase
    refine ⟨?_, ?_, hi.resolved, fun i work' h => ?_, hi.alone, hi.source, hi.starts, hi.pends,
      hi.writes, hi.startingNodup, hi.chainNodup, fun _ => ?_⟩
    · have hobj := Payload.isObject_of_isPayloadEnvelope hi.envelope
      dsimp only [Payload.setStep]
      rw [Payload.isPayloadEnvelope_set hobj (by decide)]
      exact hi.envelope
    · intro id e h
      dsimp only at h ⊢
      rw [hextract, if_neg]
      · exact hi.cached id e h
      · intro hid
        rw [hid, hnone] at h
        cases h
    · have htracked := hi.tracked i work' h
      exact ⟨htracked.named, htracked.starting, htracked.pending, htracked.removed,
        htracked.chain, htracked.written⟩
    · refine ⟨w, rest, work, output, hchain, hwork, hphase, ?_⟩
      dsimp only
      rw [hextract, if_pos rfl]

/-- The first write of the queue is answered: its work turns from `before` into `after`. -/
theorem Inv.answered {rest : List ℕ} {output : Option Json} {phase : Phase}
    {cache : String → Option StepCacheEntry} (hi : Inv s) (hchain : s.chain = w :: rest)
    (hwork : s.Has w work) (hphase : work.phase = .writing output)
    (hsettled : phase = .failed ∧ cache = s.cache ∨ phase = .written output ∧ s.committed = true ∧
      cache = fun id => if id = work.id then some (entry output) else s.cache id) :
    Inv { s.setPhase w phase with chain := rest, committed := false, cache := cache } := by
  have htracked := hi.tracked w work hwork
  have hremoved := hi.not_removed hwork (by rw [hphase]; rfl)
  have hstarting : w ∉ s.starting := fun h => by cases hphase.symm.trans (htracked.starting.mp h)
  have hnodup := hi.chainNodup
  rw [hchain, List.nodup_cons] at hnodup
  have ht : Turns s { s.setPhase w phase with chain := rest, committed := false, cache := cache } w
      work { work with phase := phase } := by
    refine ⟨hwork, fun _ _ => has_modify hwork, rfl, rfl, rfl, fun _ _ => .rfl,
      fun _ _ _ => .rfl, ?_⟩
    intro i hne
    rw [hchain]
    exact (List.mem_cons.trans (or_iff_right hne)).symm
  apply hi.turn ht
  · have hp : phase.settled = true ∧ phase ≠ .starting ∧ ¬∃ output, phase = .writing output := by
      cases hsettled with
      | inl h => rw [h.1]; exact ⟨rfl, nofun, nofun⟩
      | inr h => rw [h.1]; exact ⟨rfl, nofun, nofun⟩
    have hpending := htracked.pending.mpr ⟨hremoved, by rw [hphase]; nofun⟩
    apply Turned.of_unsettled (by rw [hphase]; rfl)
    · intro id
      dsimp only
      cases hsettled with
      | inl h => exact .inl (congrFun h.2 id)
      | inr h =>
        obtain ⟨hwritten, hcommitted, hcache⟩ := h
        by_cases hid : id = work.id
        · refine .inr ⟨hid, output, hwritten, ?_, ?_, ?_⟩
          · rw [hid]
            exact hi.cache_of_writing hwork hphase
          · rw [hcache]
            exact if_pos hid
          · obtain ⟨i, rest', work', output', hchain', hwork', hphase', hextract⟩ :=
              hi.committed hcommitted
            cases hchain.symm.trans hchain'
            cases hwork.unique hwork'
            cases hphase.symm.trans hphase'
            rw [hid]
            exact hextract
        · left
          rw [hcache]
          exact if_neg hid
    · exact fun id h => hi.id_of_pending hwork h
    · exact hi.startingNodup
    · exact hnodup.2
    · nofun
    · refine ⟨htracked.named, iff_of_false hstarting hp.2.1,
        iff_of_true hpending ⟨hremoved, hp.2.1⟩, fun _ => hp.1,
        iff_of_false hnodup.1 hp.2.2, fun output' h => ?_⟩
      cases hsettled with
      | inl hf => cases hf.1.symm.trans h
      | inr hw =>
        cases hw.1.symm.trans h
        dsimp only
        rw [hw.2.2]
        exact if_pos rfl

theorem Inv.ack (hi : Inv s) (h : StepRunner.ack s = some s') : Inv s' := by
  unfold StepRunner.ack at h
  obtain ⟨⟨w, id, output⟩, hwrite, h⟩ := Option.bind_eq_some_iff.mp h
  obtain ⟨rest, work, hchain, hwork, hid, hphase⟩ := write_eq_some hwrite
  subst hid
  dsimp only at h
  split at h
  · rename_i hcommitted
    cases h
    rw [hchain, List.tail_cons]
    exact hi.answered hchain hwork hphase (.inr ⟨rfl, hcommitted, rfl⟩)
  · cases h

theorem Inv.fail (hi : Inv s) (h : StepRunner.fail s = some s') : Inv s' := by
  unfold StepRunner.fail at h
  obtain ⟨⟨w, id, output⟩, hwrite, h⟩ := Option.map_eq_some_iff.mp h
  obtain ⟨rest, work, hchain, hwork, hid, hphase⟩ := write_eq_some hwrite
  cases h
  rw [hchain, List.tail_cons]
  exact hi.answered hchain hwork hphase (.inl ⟨rfl, rfl⟩)

theorem Inv.remove (hi : Inv s) (h : StepRunner.remove s w = some s') : Inv s' := by
  unfold StepRunner.remove at h
  split at h
  · rename_i work hwork
    replace hwork : s.Has w work := hwork
    have htracked := hi.tracked w work hwork
    split at h
    · rename_i hguard
      simp only [Bool.and_eq_true, Bool.not_eq_true'] at hguard
      obtain ⟨hsettled, hremoved⟩ := hguard
      have hlive : ¬work.Gone := fun h => by cases hremoved.symm.trans h.2
      have hphase : work.phase ≠ .starting := fun h => by simp [h, Phase.settled] at hsettled
      have hpending := htracked.pending.mpr ⟨hremoved, hphase⟩
      have ht : Turns s s' w work { work with removed := true } := by
        cases h
        refine ⟨hwork, fun _ _ => has_modify hwork, rfl, rfl, rfl, fun _ _ => .rfl, ?_,
          fun _ _ => .rfl⟩
        intro id i hne
        dsimp only
        split
        · rename_i hid
          refine iff_of_false nofun fun h => ?_
          exact absurd (hi.eq_of_pending hwork hlive (hid ▸ h)) hne
        · rfl
      apply hi.turn ht
      · cases h
        refine ⟨fun h => absurd h hlive, fun _ h => h, fun _ => .inl rfl, ?_, hi.startingNodup,
          hi.chainNodup, fun h => ⟨h, fun _ h => h, fun i rest hhead => ⟨rest, hhead⟩⟩, ?_⟩
        · intro id h
          dsimp only at h
          split at h
          · cases h
          · exact hi.id_of_pending hwork h
        · refine ⟨htracked.named, htracked.starting, ?_, fun _ => hsettled, htracked.chain,
            htracked.written⟩
          exact iff_of_false (by simp) (by simp)
    · cases h
  · cases h

theorem Inv.settle {decodes : Bool} (hi : Inv s) (h : StepRunner.settle s w decodes = some s') :
    Inv s' := by
  unfold StepRunner.settle at h
  split at h
  · rename_i work hwork
    replace hwork : s.Has w work := hwork
    have hcallers := hi.callers (· - 1) hwork
    split at h
    · dsimp only at h
      split at h
      · rename_i output hphase
        cases h
        apply hcallers.resolve
        exact (hi.tracked w work hwork).written output hphase
      · cases h
        exact hcallers
    · cases h
  · cases h

theorem Inv.step {e : Event} (hi : Inv s) (hfresh : Fresh s e) (h : system.step s e = some s') :
    Inv s' := by
  cases e with
  | call id active decodes =>
    cases h
    exact hi.call hfresh
  | returned threw => exact hi.returned h
  | commit => exact hi.commit h
  | restart =>
    cases h
    exact .start hi.envelope fun id output h => hi.cached id _ (hi.resolved id output h)
  | finish w output => exact hi.finish (Option.ite_none_right_eq_some.mp h).2
  | ack => exact hi.ack (Option.ite_none_right_eq_some.mp h).2
  | fail => exact hi.fail (Option.ite_none_right_eq_some.mp h).2
  | remove w => exact hi.remove (Option.ite_none_right_eq_some.mp h).2
  | settle w decodes => exact hi.settle (Option.ite_none_right_eq_some.mp h).2

theorem inv_of_reachable (h : system.ReachableWith Fresh s) : Inv s := by
  apply h.invariant
  · intro s hinit
    obtain ⟨payload, henv, rfl⟩ := hinit
    exact .start henv nofun
  · intro s e s' _ hi hfresh hstep
    exact hi.step hfresh hstep

/-! ## The queue of writes -/

theorem write_of_chain {rest : List ℕ} {output : Option Json} (hchain : s.chain = w :: rest)
    (hwork : s.Has w work) (hphase : work.phase = .writing output) :
    s.write = some (w, work.id, output) := by
  obtain ⟨id, phase, callers, removed⟩ := work
  cases hphase
  simp only [State.Has] at hwork
  simp [State.write, hchain, hwork]

/-- The first write is answered, and the next one is sent. -/
private theorem run_answer {rest : List ℕ} (success : Bool) (hi : Inv s)
    (hstarting : s.starting = []) (hcommitted : s.committed = false) (hchain : s.chain = w :: rest) :
    ∃ s', system.run s (if success then [.commit, .ack] else [.fail]) = some s' ∧ Inv s' ∧
      s'.starting = [] ∧ s'.committed = false ∧ s'.chain = rest ∧
      ∀ i, i ≠ w → s'.works[i]? = s.works[i]? := by
  obtain ⟨work, hwork⟩ := hi.writes w (by simp [hchain])
  obtain ⟨output, hphase⟩ := (hi.tracked w work hwork).chain.mp (by simp [hchain])
  have hwrite := write_of_chain hchain hwork hphase
  cases success with
  | false =>
    let s₁ : State := { s.setPhase w .failed with chain := rest, committed := false }
    have hfail : StepRunner.fail s = some s₁ := by
      simp [StepRunner.fail, hwrite, hchain, s₁]
    refine ⟨s₁, ?_, hi.fail hfail, hstarting, rfl, rfl, fun i hne => ?_⟩
    · simp [TransitionSystem.run, TransitionSystem.runWith, system, step, hstarting, hfail]
    · exact List.getElem?_modify_ne _ _ (Ne.symm hne)
  | true =>
    let s₁ : State := { s with
      payload := Payload.setStep s.payload work.id (entry output).toJson, committed := true }
    have hcommit : StepRunner.commit s = some s₁ := by
      simp [StepRunner.commit, hwrite, hcommitted, s₁]
    let s₂ : State := { s₁.setPhase w (.written output) with
      chain := rest, committed := false,
      cache := fun id => if id = work.id then some (entry output) else s.cache id }
    have hwrite₁ : s₁.write = some (w, work.id, output) := hwrite
    have hack : StepRunner.ack s₁ = some s₂ := by
      rw [StepRunner.ack, hwrite₁]
      simp [s₂, s₁, hchain]
    refine ⟨s₂, ?_, (hi.commit hcommit).ack hack, hstarting, rfl, rfl, fun i hne => ?_⟩
    · have hstarting₁ : s₁.starting = [] := hstarting
      simp [TransitionSystem.run, TransitionSystem.runWith, system, step, hcommit, hstarting₁, hack]
    · exact List.getElem?_modify_ne _ _ (Ne.symm hne)

theorem Inv.unblocked (hi : Inv s) (hstarting : s.starting = [])
    (hcommitted : s.committed = false) :
    ∀ {first : List ℕ} {last : List ℕ} {succeed : List Bool}, s.chain = first ++ w :: last →
      succeed.length = first.length → ∃ s', system.run s (answers succeed) = some s' ∧
        s'.chain = w :: last ∧ s'.committed = false ∧ s'.works[w]? = s.works[w]? := by
  intro first
  induction first generalizing s with
  | nil =>
    intro last succeed hchain hlength
    cases List.length_eq_zero_iff.mp hlength
    exact ⟨s, rfl, hchain, hcommitted, rfl⟩
  | cons v first ih =>
    intro last succeed hchain hlength
    cases succeed with
    | nil => cases hlength
    | cons success succeed =>
      have hne : w ≠ v := by
        intro h
        have hnodup := hi.chainNodup
        rw [hchain, h] at hnodup
        simp at hnodup
      obtain ⟨s₁, hrun, hi₁, hstarting₁, hcommitted₁, hchain₁, hworks⟩ :=
        run_answer success hi hstarting hcommitted hchain
      obtain ⟨s₂, hrest, hchain₂, hcommitted₂, hwork⟩ :=
        ih hi₁ hstarting₁ hcommitted₁ hchain₁ (Nat.succ.inj hlength)
      refine ⟨s₂, ?_, hchain₂, hcommitted₂, hwork.trans (hworks w hne)⟩
      rw [answers, List.flatMap_cons, TransitionSystem.run_append, hrun]
      exact hrest

/-! ## Steps are single-flight -/

/-- What a call does that finds nothing cached or pending. -/
private theorem call_invokes {active decodes : Bool} (hid : id ≠ "") (hactive : active = true)
    (hcache : s.cache id = none) (hpending : s.pending id = none) :
    call s id active decodes = s.invoke id := by
  simp [call, hid, hactive, hcache, hpending]

private theorem works_resolve {output : Option Json} {decodes : Bool} :
    (s.resolve id output decodes).works = s.works := by
  unfold State.resolve
  split <;> rfl

private theorem cache_of_gone (hi : Inv s) (hwork : s.Has w work)
    (hnone : ∀ i work', s.Has i work' → work'.id = work.id →
      ∀ output, work'.phase ≠ .written output) : s.cache work.id = none := by
  by_contra h
  obtain ⟨i, source, output, hsource, hid, hphase⟩ :=
    hi.source w work hwork (Option.isSome_iff_ne_none.mpr h)
  exact hnone i source hsource hid output hphase

private theorem honest_of_inv (hi : Inv s) : Honest s where
  singleFlight := by
    intro w w' work work' h h' hflight hflight' hid
    have hlive : ∀ work : Work, work.phase.inFlight = true → ¬work.Gone := by
      intro work hflight hgone
      rw [hgone.1] at hflight
      cases hflight
    exact hi.alone w w' work work' h h' hid (hlive work hflight) (hlive work' hflight')
  persisted := by
    intro id output h
    have hcached := hi.resolved id output h
    exact ⟨hcached, hi.cached id _ hcached⟩
  sameValue := by
    intro id output output' h h'
    have heq := Option.some.inj ((hi.resolved id output h).symm.trans (hi.resolved id output' h'))
    simpa using congrArg StepCacheEntry.value heq
  notAgain := by
    intro id output h active decodes
    unfold call
    split
    · rfl
    · rw [hi.resolved id output h]
      exact works_resolve
  again := by
    intro w work hwork hgone decodes
    have hcache : s.cache work.id = none := by
      apply cache_of_gone hi hwork
      intro i work' hwork' hid output hphase
      cases hphase.symm.trans (hgone i work' hwork' hid).1
    have hpending : s.pending work.id = none := by
      by_contra h
      obtain ⟨i, hpending⟩ := Option.ne_none_iff_exists'.mp h
      obtain ⟨work', hwork', hid⟩ := hi.pends _ _ hpending
      have hremoved := ((hi.tracked i work' hwork').pending.mp (hid ▸ hpending)).1
      cases hremoved.symm.trans (hgone i work' hwork' hid).2
    rw [call_invokes (hi.tracked w work hwork).named rfl hcache hpending]
    rfl
  told := by
    intro w work hwork decodes h hpending
    have hremoved := ((hi.tracked w work hwork).pending.mp hpending).1
    have hwork : s.works[w]? = some work := hwork
    simp [settle, hwork, hremoved] at h
  queued := by
    intro w work output hwork hphase
    exact (hi.tracked w work hwork).chain.mpr ⟨output, hphase⟩
  unblocked := by
    intro hstarting hcommitted first w last succeed hchain hlength
    exact hi.unblocked hstarting hcommitted hchain hlength

/-- A call for the id of a function on the stack puts a second one on it. -/
private theorem not_honest_of_not_fresh {e : Event} (hi : Inv s) (hfresh : ¬Fresh s e)
    (h : system.step s e = some s') : ¬Honest s' := by
  intro hhonest
  cases e with
  | call id active decodes =>
    cases h
    simp only [Fresh, not_forall, not_not] at hfresh
    obtain ⟨hactive, w, hstarting, work, hwork, hid⟩ := hfresh
    subst hid
    have htracked := hi.tracked w work hwork
    have hphase := htracked.starting.mp hstarting
    have hlive : ¬work.Gone := by simp [Work.Gone, hphase]
    have hcache : s.cache work.id = none := by
      apply cache_of_gone hi hwork
      intro i work' hwork' hid output hphase'
      have hlive' : ¬work'.Gone := by simp [Work.Gone, hphase']
      cases hi.alone i w work' work hwork' hwork hid hlive' hlive
      cases hwork.unique hwork'
      cases hphase.symm.trans hphase'
    have hpending : s.pending work.id = none := by
      by_contra h
      obtain ⟨i, hpending⟩ := Option.ne_none_iff_exists'.mp h
      have heq := hi.eq_of_pending hwork hlive hpending
      exact (htracked.pending.mp (heq ▸ hpending)).2 hphase
    rw [call_invokes htracked.named hactive hcache hpending] at hhonest
    have hold : (s.invoke work.id).Has w work := has_invoke.mpr (.inr hwork)
    have hnew : (s.invoke work.id).Has s.works.length (.start work.id) :=
      has_invoke.mpr (.inl ⟨rfl, rfl⟩)
    have heq := hhonest.singleFlight w _ work _ hold hnew (by rw [hphase]; rfl) rfl rfl
    exact Nat.ne_of_lt hwork.lt heq
  | _ => exact hfresh trivial

/-- Steps are single-flight and replay one value as long as no function calls `step.run` with
its own id before it returns; the first such call breaks it. -/
theorem steps_honest (h : system.ReachableWith Fresh s) :
    Honest s ∧ ∀ e s', ¬Fresh s e → system.step s e = some s' → ¬Honest s' := by
  have hi := inv_of_reachable h
  exact ⟨honest_of_inv hi, fun e s' hfresh hstep => not_honest_of_not_fresh hi hfresh hstep⟩

end

namespace StepTrace

/-- Two concurrent calls; the first write of the checkpoint fails, and the next call succeeds. -/
def events : List Event :=
  [.call "charge" true true, .returned false, .call "charge" true true,
    .finish 0 (some (some (.num 1))), .fail, .remove 0, .settle 0 true, .settle 0 true,
    .call "charge" true true, .returned false, .finish 1 (some (some (.num 2))), .commit, .ack,
    .remove 1, .settle 1 true, .restart, .call "charge" true true]

/-- `step.run('charge', () => step.run('charge', fn))`. -/
def nested : List Event := [.call "charge" true true, .call "charge" true true]

/-- Calls only while no function is on the stack. -/
def idle (s : State) : Event → Bool
  | .call .. => s.starting.isEmpty
  | _ => true

def initial : State := .start (Payload.injectTraceContext none none) []

end StepTrace

theorem steps_honest_retried :
    ∃ s, s.resolved.length = 2 ∧ Honest s ∧
      ∀ e s', ¬Fresh s e → system.step s e = some s' → ¬Honest s' := by
  have hfresh : ∀ s e, StepTrace.idle s e = true → Fresh s e := by
    intro s e h
    cases e with
    | call id active decodes =>
      intro _ w hw
      rw [List.isEmpty_iff.mp h] at hw
      cases hw
    | _ => exact trivial
  have hinit : system.Init StepTrace.initial := ⟨_, by decide, rfl⟩
  obtain ⟨s, hreach, hlength⟩ := system.exists_reachableWith_of_runWith StepTrace.events
    (fun s => s.resolved.length = 2) hfresh hinit (by decide)
  exact ⟨s, of_decide_eq_true hlength, steps_honest hreach⟩

/-- Two functions of one id are in flight. -/
theorem steps_not_single_flight : ¬∀ s, system.Reachable s → Honest s := by
  intro hclaim
  have hinit : system.Init StepTrace.initial := ⟨_, by decide, rfl⟩
  obtain ⟨s, hreach, htest⟩ := system.exists_reachable_of_run StepTrace.nested
    (fun s => s.works.length = 2 && s.works.all (fun work => work.phase.inFlight) &&
      s.works.all (fun work => work.id = "charge")) hinit (by decide)
  simp only [Bool.and_eq_true, decide_eq_true_eq, List.all_eq_true] at htest
  obtain ⟨⟨hlength, hflight⟩, hid⟩ := htest
  obtain ⟨a, b, hworks⟩ := List.length_eq_two.mp hlength
  have ha : s.Has 0 a := by simp [State.Has, hworks]
  have hb : s.Has 1 b := by simp [State.Has, hworks]
  have hmem : a ∈ s.works ∧ b ∈ s.works := by simp [hworks]
  have heq := (hclaim s hreach).singleFlight 0 1 a b ha hb (hflight a hmem.1) (hflight b hmem.2)
    ((hid a hmem.1).trans (hid b hmem.2).symm)
  cases heq

end StepRunner

end BetterGraphileWorker
