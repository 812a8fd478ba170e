-- SUMMARY: The progress of a run: the throttled queue of its writes, and what a flush or a close that resolved has written.
import Mathlib.Data.Int.Notation
import Mathlib.Data.List.Basic
import BetterGraphileWorker.Data.Json
import BetterGraphileWorker.Library.Runs

/-!
# The progress runner

`createProgressRunner` of `progress.ts`. A promise of its chain of writes is named by
its number; promise 0 is `Promise.resolve()`. A write reads the value when it starts.
One record holds the error of a failed write, for whichever call takes it first.
-/

namespace BetterGraphileWorker.ProgressRunner

/-! ## States -/

/-- A value that `set` accepted. -/
structure Accepted where
  /-- The number of the call in the order in which `set` was called. -/
  call : ℕ
  value : Json

/-- One call of `options.write`. -/
structure Write where
  /-- The number of values accepted before it. -/
  version : ℕ
  value : Option Json

/-- The `await` at which a call stands. -/
inductive Stage where
  /-- `await write()` of `flush`. -/
  | flush
  /-- `await write()` of `close(true)`. -/
  | persist
  /-- `await writes` of `close(persist)`. -/
  | drain (persist : Bool)

inductive Outcome where
  | waiting (promise : ℕ)
  | resolved
  | rejected

/-- A call of `flush` or `close`. -/
structure Caller where
  stage : Stage
  outcome : Outcome
  /-- The number of values accepted before the call. -/
  needed : ℕ

structure State where
  value : Option Json
  dirty : Bool
  queued : Bool
  closed : Bool
  /-- The time of the last queued write, which is `-Infinity` at first. -/
  lastWrite : Option ℤ
  timer : Bool
  /-- `writes`: the last promise of the chain. -/
  tail : ℕ
  /-- There is a `failure` record. -/
  failure : Bool
  /-- The promises of the chain whose callback has started, and the promises that settled. -/
  started : ℕ
  settled : ℕ
  /-- The writes in flight. -/
  flights : List Write
  /-- The accepted values, in order. -/
  accepted : List Accepted
  /-- The number of calls of `set`, and those whose parser is pending or that were rejected. -/
  calls : ℕ
  parsing : List ℕ
  refused : List ℕ
  /-- All writes, the newest first, and those that succeeded. -/
  log : List Write
  written : List Write
  callers : List Caller

def State.start (initial : Option Json) : State where
  value := initial
  dirty := false
  queued := false
  closed := false
  lastWrite := none
  timer := false
  tail := 0
  failure := false
  started := 0
  settled := 0
  flights := []
  accepted := []
  calls := 0
  parsing := []
  refused := []
  log := []
  written := []
  callers := []

namespace State

/-- `write`, whose result is the last promise of the chain after it. -/
def write (s : State) (now : ℤ) : State :=
  if !s.dirty || s.queued then { s with timer := false }
  else { s with timer := false, queued := true, lastWrite := some now, tail := s.tail + 1 }

/-- `lastWrite + PROGRESS_WRITE_INTERVAL_MS - Date.now() <= 0`. -/
def due (s : State) (now : ℤ) : Bool :=
  match s.lastWrite with
  | none => true
  | some last => last + 1000 - now ≤ 0

/-- The rest of `set` once the value is accepted. -/
def accept (s : State) (call : ℕ) (value : Json) (now : ℤ) : State :=
  let s := { s with
    value := some value, dirty := true, accepted := s.accepted ++ [⟨call, value⟩] }
  if s.timer then s else if s.due now then s.write now else { s with timer := true }

def refuse (s : State) (call : ℕ) : State := { s with refused := call :: s.refused }

/-- `set` after its parser: none is a value that the parser or `assertJsonValue` rejects. -/
def parsed (s : State) (call : ℕ) (result : Option Json) (now : ℤ) : State :=
  match result with
  | none => s.refuse call
  | some value => if s.closed then s.refuse call else s.accept call value now

/-- `set` up to its parser, or all of it where there is no schema. -/
def set (schema : Bool) (s : State) (result : Option Json) (now : ℤ) : State :=
  let call := s.calls
  let s := { s with calls := s.calls + 1 }
  if s.closed then s.refuse call
  else if s.failure then { s.refuse call with failure := false }
  else if schema then { s with parsing := s.parsing ++ [call] }
  else s.parsed call result now

def addCaller (s : State) (stage : Stage) : State :=
  { s with callers := s.callers ++ [⟨stage, .waiting s.tail, s.accepted.length⟩] }

def flush (s : State) (now : ℤ) : State :=
  if s.closed then s else (s.write now).addCaller .flush

def close (s : State) (persist : Bool) (now : ℤ) : State :=
  let s := { s with closed := true }
  if persist then (s.write now).addCaller .persist
  else { s.addCaller (.drain false) with timer := false }

def setCaller (s : State) (i : ℕ) (caller : Caller) : State :=
  { s with callers := s.callers.set i caller }

/-- A call of `flush` or `close` continues after its `await`. -/
def resume (s : State) (i : ℕ) : Option State :=
  match s.callers[i]? with
  | some ⟨stage, .waiting promise, needed⟩ =>
    if promise ≤ s.settled then
      match stage with
      | .persist =>
        some { s.setCaller i ⟨.drain true, .waiting s.tail, needed⟩ with timer := false }
      | stage =>
        if s.failure then
          some { s.setCaller i ⟨stage, .rejected, needed⟩ with failure := false }
        else some (s.setCaller i ⟨stage, .resolved, needed⟩)
    else none
  | _ => none

/-- The callback of the next promise of the chain, once the one before it has settled. -/
def startWrite (s : State) : Option State :=
  if s.started < s.tail ∧ s.started = s.settled then
    if s.dirty then
      let write : Write := ⟨s.accepted.length, s.value⟩
      some { s with
        queued := false, dirty := false, started := s.started + 1,
        flights := write :: s.flights, log := write :: s.log }
    else some { s with queued := false, started := s.started + 1, settled := s.settled + 1 }
  else none

/-- `options.write` resolves or rejects. -/
def land (s : State) (success : Bool) : Option State :=
  match s.flights with
  | [] => none
  | write :: rest =>
    let s := { s with flights := rest, settled := s.settled + 1 }
    if success then some { s with written := write :: s.written }
    else some { s with failure := true, dirty := true }

end State

/-! ## Steps -/

inductive Event where
  | set (result : Option Json) (now : ℤ)
  /-- The parser of a call of `set` settled. -/
  | parsed (call : ℕ) (result : Option Json) (now : ℤ)
  | flush (now : ℤ)
  | close (persist : Bool) (now : ℤ)
  /-- The throttle timer fires. -/
  | fire (now : ℤ)
  | startWrite
  | land (success : Bool)
  | resume (i : ℕ)

def step (schema : Bool) (s : State) : Event → Option State
  | .set result now => some (s.set schema result now)
  | .parsed call result now =>
    if call ∈ s.parsing then
      some ({ s with parsing := s.parsing.erase call }.parsed call result now)
    else none
  | .flush now => some (s.flush now)
  | .close persist now => some (s.close persist now)
  | .fire now => if s.timer then some (s.write now) else none
  | .startWrite => s.startWrite
  | .land success => s.land success
  | .resume i => s.resume i

/-- Runs with the progress that an earlier attempt persisted. -/
def system (schema : Bool) : TransitionSystem State Event where
  Init s := ∃ initial, s = .start initial
  step := step schema

/-! ## The condition and the property -/

def State.Has (s : State) (i : ℕ) (c : Caller) : Prop := s.callers[i]? = some c

/-- A value accepted as the `n`th or later has been written. -/
def State.Saved (s : State) (n : ℕ) : Prop := n = 0 ∨ ∃ w ∈ s.written, n ≤ w.version

/-- The promise for which a call that has to persist a value waits in the end. -/
def State.awaited (s : State) : Caller → Option ℕ
  | ⟨.flush, .waiting promise, _⟩ | ⟨.drain true, .waiting promise, _⟩ => some promise
  | ⟨.persist, .waiting _, _⟩ => some s.tail
  | _ => none

/-- The call waits for a write that has failed. -/
def State.Owed (s : State) (c : Caller) : Prop :=
  ¬s.Saved c.needed ∧ ∃ promise, s.awaited c = some promise ∧ promise ≤ s.settled

/-- No call takes the failure record while another one waits for the failed write, and no
`close(true)` has something to write after a `close` has begun to wait for the last write. -/
def Unshared (s : State) : Event → Prop
  | .set _ _ => s.closed = false → s.failure = true → ∀ i c, s.Has i c → ¬s.Owed c
  | .resume i => s.failure = true → ∀ caller, s.Has i caller → caller.stage ≠ .persist →
      ∀ j c, j ≠ i → s.Has j c → ¬s.Owed c
  | .close true _ => s.dirty = true → s.queued = false →
      ∀ i c, s.Has i c → ∀ persist, c.stage ≠ .drain persist
  | _ => True

/-- What callers of `ctx.progress` rely on. -/
structure Honest (s : State) : Prop where
  oneAtATime : s.flights.length ≤ 1
  /-- No value is written after a newer one. -/
  inOrder : s.log.Pairwise fun later earlier => earlier.version ≤ later.version
  accepted : ∀ w ∈ s.log, ∃ a, s.accepted[w.version - 1]? = some a ∧ 0 < w.version ∧
    w.value = some a.value
  logged : ∀ w ∈ s.written, w ∈ s.log
  flushed : ∀ i needed, s.Has i ⟨.flush, .resolved, needed⟩ → s.Saved needed
  closed : ∀ i needed, s.Has i ⟨.drain true, .resolved, needed⟩ → s.Saved s.accepted.length
  kept : s.flights = [] → s.dirty = true ∨ s.Saved s.accepted.length
  /-- The value that the next write reads is the latest accepted one. -/
  latest : ∀ a, s.accepted.getLast? = some a → s.value = some a.value
  /-- No write starts once a `close` has settled. -/
  quiet : ∀ i persist needed, s.Has i ⟨.drain persist, .resolved, needed⟩ ∨
    s.Has i ⟨.drain persist, .rejected, needed⟩ → s.startWrite = none

/-! ## The invariant -/

/-- The value that a call needs is written, will be, or its failure is on record. -/
def State.Awaits (s : State) (needed promise : ℕ) : Prop :=
  s.Saved needed ∨ s.queued = true ∧ promise = s.tail ∨
    (∃ w ∈ s.flights, promise = s.started ∧ needed ≤ w.version) ∨
    promise ≤ s.settled ∧ s.failure = true

structure Tracked (s : State) (c : Caller) : Prop where
  needed : c.needed ≤ s.accepted.length
  closer : c.stage ≠ .flush → s.closed = true ∧ c.needed = s.accepted.length
  awaits : ∀ promise, s.awaited c = some promise → s.Awaits c.needed promise
  resolved : c.outcome = .resolved → c.stage ≠ .drain false → s.Saved c.needed
  /-- The chain does not grow any more. -/
  drained : ∀ persist, c.stage = .drain persist → c.outcome = .waiting s.tail ∨ s.tail ≤ s.settled
  known : ∀ promise, c.outcome = .waiting promise → promise ≤ s.tail

/-- The chain of writes and the value they read, in every run. -/
structure Chain (s : State) : Prop where
  chain : s.tail = s.started + s.queued.toNat
  started : s.started = s.settled + s.flights.length
  queued : s.queued = true → s.dirty = true
  alone : s.flights.length ≤ 1
  dirty : s.dirty = true → 0 < s.accepted.length
  value : ∀ a, s.accepted.getLast? = some a → s.value = some a.value
  log : ∀ w ∈ s.log, ∃ a, s.accepted[w.version - 1]? = some a ∧ 0 < w.version ∧
    w.value = some a.value
  inOrder : s.log.Pairwise fun later earlier => earlier.version ≤ later.version
  flying : ∀ w ∈ s.flights, w ∈ s.log ∧ (s.dirty = true ∨ w.version = s.accepted.length)
  logged : ∀ w ∈ s.written, w ∈ s.log
  newest : (s.flights ++ s.written).Pairwise fun later earlier => earlier.version ≤ later.version
  kept : s.flights = [] → s.dirty = true ∨ s.Saved s.accepted.length

structure Inv (s : State) : Prop extends Chain s where
  timer : s.closed = true → s.timer = false
  callers : ∀ i c, s.Has i c → Tracked s c

section
variable {s s' : State} {c : Caller} {i n : ℕ} {now : ℤ} {schema : Bool}

/-! ## The chain of writes -/

theorem Chain.start (initial : Option Json) : Chain (.start initial) := by
  constructor <;> simp [State.start, State.Saved]

/-- A write is not older than the values that were accepted before it. -/
theorem Chain.version_le (hc : Chain s) {w : Write} (hw : w ∈ s.log) :
    w.version ≤ s.accepted.length := by
  obtain ⟨a, ha, hpos, _⟩ := hc.log w hw
  have hlt := (List.getElem?_eq_some_iff.mp ha).1
  omega

theorem Chain.write (hc : Chain s) : Chain (s.write now) := by
  unfold State.write
  split
  · exact { hc with }
  · rename_i hguard
    simp only [Bool.or_eq_true, Bool.not_eq_true', not_or, Bool.not_eq_false,
      Bool.not_eq_true] at hguard
    obtain ⟨hd, hq⟩ := hguard
    refine { hc with chain := ?_, queued := fun _ => hd }
    have hchain := hc.chain
    simp only [hq, Bool.toNat_false, Nat.add_zero] at hchain
    simp [hchain]

theorem Chain.push {a : Accepted} (hc : Chain s) :
    Chain { s with value := some a.value, dirty := true, accepted := s.accepted ++ [a] } := by
  refine { hc with
    queued := fun _ => rfl, dirty := fun _ => by simp, value := fun a h => ?_,
    log := fun w hw => ?_, flying := fun w hw => ⟨(hc.flying w hw).1, .inl rfl⟩,
    kept := fun _ => .inl rfl }
  · simp only [List.getLast?_append, List.getLast?_singleton, Option.some_or,
      Option.some.injEq] at h
    rw [← h]
  · obtain ⟨a, ha, hpos, hvalue⟩ := hc.log w hw
    refine ⟨a, ?_, hpos, hvalue⟩
    exact (List.getElem?_append_left (List.getElem?_eq_some_iff.mp ha).1).trans ha

theorem Chain.accept {call : ℕ} {value : Json} (hc : Chain s) :
    Chain (s.accept call value now) := by
  have hpush := hc.push (a := ⟨call, value⟩)
  unfold State.accept
  dsimp only
  split
  · exact hpush
  · split
    · exact hpush.write
    · exact { hpush with }

theorem Chain.parsed {call : ℕ} {result : Option Json} (hc : Chain s) :
    Chain (s.parsed call result now) := by
  unfold State.parsed
  cases result with
  | none => exact { hc with }
  | some value =>
    dsimp only
    split
    · exact { hc with }
    · exact hc.accept

theorem Chain.set {result : Option Json} (hc : Chain s) : Chain (s.set schema result now) := by
  have hcounted : Chain { s with calls := s.calls + 1 } := { hc with }
  unfold State.set
  dsimp only
  split
  · exact { hc with }
  · split
    · exact { hc with }
    · split
      · exact { hc with }
      · exact hcounted.parsed

theorem Chain.flush (hc : Chain s) : Chain (s.flush now) := by
  unfold State.flush
  split
  · exact hc
  · exact { hc.write with }

theorem Chain.close {persist : Bool} (hc : Chain s) : Chain (s.close persist now) := by
  have hclosed : Chain { s with closed := true } := { hc with }
  unfold State.close
  dsimp only
  split
  · exact { hclosed.write with }
  · exact { hc with }

/-- The state in which a write has just started. -/
theorem Chain.startWrite_eq (hc : Chain s) (h : s.startWrite = some s') :
    s.flights = [] ∧ s.tail = s.started + 1 ∧ s.started = s.settled ∧ s.dirty = true ∧
      s' = { s with
        queued := false, dirty := false, started := s.started + 1,
        flights := [⟨s.accepted.length, s.value⟩], log := ⟨s.accepted.length, s.value⟩ :: s.log } := by
  unfold State.startWrite at h
  split at h
  · rename_i hguard
    obtain ⟨htail, hsettled⟩ := hguard
    have hq : s.queued = true := by
      cases hq : s.queued with
      | true => rfl
      | false =>
        have hchain := hc.chain
        simp only [hq, Bool.toNat_false] at hchain
        omega
    have hd := hc.queued hq
    have hflights : s.flights = [] := by
      apply List.length_eq_zero_iff.mp
      have hstarted := hc.started
      omega
    rw [if_pos hd] at h
    cases h
    refine ⟨hflights, by simpa [hq] using hc.chain, hsettled, hd, ?_⟩
    rw [hflights]
  · cases h

theorem Chain.startWrite (hc : Chain s) (h : s.startWrite = some s') : Chain s' := by
  obtain ⟨hflights, htail, hsettled, hd, rfl⟩ := hc.startWrite_eq h
  have hpos := hc.dirty hd
  refine { hc with
    chain := by simpa using htail, started := by simp [hsettled], queued := nofun,
    alone := by simp, dirty := nofun, log := fun w hw => ?_, inOrder := ?_,
    flying := fun w hw => ?_, logged := fun w hw => List.mem_cons_of_mem _ (hc.logged w hw),
    newest := ?_, kept := nofun }
  · cases List.mem_cons.mp hw with
    | inl h =>
      rw [h]
      obtain ⟨a, ha⟩ : ∃ a, s.accepted.getLast? = some a := by
        rw [← Option.isSome_iff_exists, List.getLast?_isSome]
        exact List.ne_nil_of_length_pos hpos
      refine ⟨a, ?_, hpos, hc.value a ha⟩
      rw [← ha, List.getLast?_eq_getElem?]
    | inr h => exact hc.log w h
  · exact List.pairwise_cons.mpr ⟨fun w hw => hc.version_le hw, hc.inOrder⟩
  · rw [List.mem_singleton.mp hw]
    exact ⟨List.mem_cons_self, .inr rfl⟩
  · have hnewest := hc.newest
    rw [hflights, List.nil_append] at hnewest
    exact List.pairwise_cons.mpr ⟨fun w hw => hc.version_le (hc.logged w hw), hnewest⟩

/-- The state in which a write has been answered. -/
theorem Chain.land_eq {success : Bool} (hc : Chain s) (h : s.land success = some s') :
    ∃ w, s.flights = [w] ∧ s.started = s.settled + 1 ∧
      s' = if success then
          { s with flights := [], settled := s.settled + 1, written := w :: s.written }
        else { s with flights := [], settled := s.settled + 1, failure := true, dirty := true } := by
  unfold State.land at h
  split at h
  · cases h
  · rename_i w rest hflights
    have hrest : rest = [] := by
      have halone := hc.alone
      rw [hflights, List.length_cons] at halone
      exact List.length_eq_zero_iff.mp (by omega)
    subst hrest
    refine ⟨w, hflights, by simpa [hflights] using hc.started, ?_⟩
    cases success <;> cases h <;> rfl

theorem Chain.land {success : Bool} (hc : Chain s) (h : s.land success = some s') : Chain s' := by
  obtain ⟨w, hflights, hstarted, rfl⟩ := hc.land_eq h
  obtain ⟨hlog, hlatest⟩ := hc.flying w (by simp [hflights])
  have hnewest := hc.newest
  rw [hflights] at hnewest
  cases success with
  | true =>
    refine { hc with
      started := hstarted, alone := Nat.zero_le _, flying := nofun, logged := fun v hv => ?_,
      newest := hnewest, kept := fun _ => ?_ }
    · cases List.mem_cons.mp hv with
      | inl h => rw [h]; exact hlog
      | inr h => exact hc.logged v h
    · exact hlatest.imp_right fun h => .inr ⟨w, List.mem_cons_self, Nat.le_of_eq h.symm⟩
  | false =>
    refine { hc with
      started := hstarted, alone := Nat.zero_le _, queued := fun _ => rfl, dirty := fun _ => ?_,
      flying := nofun, newest := (List.pairwise_cons.mp hnewest).2, kept := fun _ => .inl rfl }
    obtain ⟨_, _, hpos, _⟩ := hc.log w hlog
    exact Nat.lt_of_lt_of_le hpos (hc.version_le hlog)

theorem Chain.resume (hc : Chain s) (h : s.resume i = some s') : Chain s' := by
  unfold State.resume at h
  split at h
  · split at h
    · split at h
      · cases h
        exact { hc with }
      · split at h
        · cases h
          exact { hc with }
        · cases h
          exact { hc with }
    · cases h
  · cases h

theorem Chain.step {e : Event} (hc : Chain s) (h : (system schema).step s e = some s') :
    Chain s' := by
  cases e with
  | set result now => cases h; exact hc.set
  | parsed call result now =>
    have herased : Chain { s with parsing := s.parsing.erase call } := { hc with }
    have h := (Option.ite_none_right_eq_some.mp h).2
    cases h
    exact herased.parsed
  | flush now => cases h; exact hc.flush
  | close persist now => cases h; exact hc.close
  | fire now =>
    have h := (Option.ite_none_right_eq_some.mp h).2
    cases h
    exact hc.write
  | startWrite => exact hc.startWrite h
  | land success => exact hc.land h
  | resume i => exact hc.resume h

theorem chain_of_reachable (h : (system schema).Reachable s) : Chain s := by
  apply h.invariant
  · intro s hinit
    obtain ⟨initial, rfl⟩ := hinit
    exact .start initial
  · intro s e s' _ hc _ hstep
    exact hc.step hstep

/-- After `write()`, the latest value is written, will be, or its failure is on record. -/
theorem Chain.awaits_tail (hc : Chain s) (hqueued : s.dirty = true → s.queued = true) :
    s.Awaits s.accepted.length s.tail := by
  cases hd : s.dirty with
  | true => exact .inr (.inl ⟨hqueued hd, rfl⟩)
  | false =>
    have hq : s.queued = false := by
      cases hq : s.queued with
      | false => rfl
      | true => cases hd.symm.trans (hc.queued hq)
    have htail : s.tail = s.started := by simpa [hq] using hc.chain
    cases hf : s.flights with
    | nil =>
      left
      exact (hc.kept hf).resolve_left (by simp [hd])
    | cons w rest =>
      right; right; left
      have hw : w ∈ s.flights := by simp [hf]
      refine ⟨w, hw, htail, ?_⟩
      exact Nat.le_of_eq ((hc.flying w hw).2.resolve_left (by simp [hd])).symm

/-! ## Calls -/

theorem Inv.start (initial : Option Json) : Inv (.start initial) :=
  { Chain.start initial with timer := nofun, callers := nofun }

theorem awaited_flush {outcome : Outcome} {promise : ℕ}
    (h : s.awaited ⟨.flush, outcome, n⟩ = some promise) :
    s'.awaited ⟨.flush, outcome, n⟩ = some promise := by
  cases outcome <;> exact h

theorem Tracked.write (hc : Tracked s c)
    (hopen : s.dirty = true → s.queued = false → ∀ persist, c.stage ≠ .drain persist) :
    Tracked (s.write now) c := by
  unfold State.write
  split
  · exact ⟨hc.needed, hc.closer, hc.awaits, hc.resolved, hc.drained, hc.known⟩
  · rename_i hguard
    simp only [Bool.or_eq_true, Bool.not_eq_true', not_or, Bool.not_eq_false,
      Bool.not_eq_true] at hguard
    obtain ⟨hd, hq⟩ := hguard
    refine ⟨hc.needed, hc.closer, fun promise hp => ?_, hc.resolved, fun persist hstage => ?_,
      fun promise hp => Nat.le_succ_of_le (hc.known promise hp)⟩
    · obtain ⟨stage, outcome, needed⟩ := c
      cases stage with
      | persist =>
        cases outcome with
        | waiting p =>
          cases hp
          exact .inr (.inl ⟨rfl, rfl⟩)
        | _ => cases hp
      | flush =>
        cases hc.awaits promise (awaited_flush hp) with
        | inl h => exact .inl h
        | inr h =>
          cases h with
          | inl h => cases hq.symm.trans h.1
          | inr h => exact .inr (.inr h)
      | drain persist => exact absurd rfl (hopen hd hq persist)
    · exact absurd hstage (hopen hd hq persist)

theorem write_timer : (s.write now).timer = false := by
  unfold State.write
  split <;> rfl

theorem has_write : (s.write now).Has i c ↔ s.Has i c := by
  unfold State.write
  split <;> rfl

theorem Inv.write (hi : Inv s)
    (hopen : s.dirty = true → s.queued = false →
      ∀ i c, s.Has i c → ∀ persist, c.stage ≠ .drain persist) : Inv (s.write now) where
  toChain := hi.toChain.write
  timer := fun _ => write_timer
  callers := by
    intro i c h
    have hcaller := has_write.mp h
    exact (hi.callers i c hcaller).write fun hd hq => hopen hd hq i c hcaller

/-- While the runner is open, only calls of `flush` are waiting. -/
theorem Inv.stage_flush (hi : Inv s) (hclosed : s.closed = false) (h : s.Has i c) :
    c.stage = .flush := by
  by_contra hne
  cases hclosed.symm.trans ((hi.callers i c h).closer hne).1

theorem Inv.accept {call : ℕ} {value : Json} (hi : Inv s) (hclosed : s.closed = false) :
    Inv (s.accept call value now) := by
  have hopen : ∀ i c, s.Has i c → ∀ persist, c.stage ≠ .drain persist := by
    intro i c h persist hstage
    cases (hi.stage_flush hclosed h).symm.trans hstage
  have hi' : Inv { s with
      value := some value, dirty := true, accepted := s.accepted ++ [⟨call, value⟩] } := by
    refine { hi.toChain.push (a := ⟨call, value⟩) with
      timer := hi.timer, callers := fun i c h => ?_ }
    have hc := hi.callers i c h
    have hflush := hi.stage_flush hclosed h
    refine ⟨?_, fun hne => absurd hflush hne, hc.awaits, hc.resolved, hc.drained, hc.known⟩
    have hneeded := hc.needed
    simp only [List.length_append, List.length_singleton]
    omega
  unfold State.accept
  dsimp only
  split
  · exact hi'
  · split
    · exact hi'.write fun _ _ => hopen
    · refine { hi' with timer := fun h => ?_, callers := fun i c h => ?_ }
      · cases hclosed.symm.trans h
      have hc := hi'.callers i c h
      exact ⟨hc.needed, hc.closer, hc.awaits, hc.resolved, hc.drained, hc.known⟩

/-- Fields that the invariant does not mention. -/
theorem Inv.refuse {call : ℕ} (hi : Inv s) : Inv (s.refuse call) := by
  refine { hi with callers := fun i c h => ?_ }
  have hc := hi.callers i c h
  exact ⟨hc.needed, hc.closer, hc.awaits, hc.resolved, hc.drained, hc.known⟩

theorem Inv.counted {calls : ℕ} {parsing : List ℕ} (hi : Inv s) :
    Inv { s with calls := calls, parsing := parsing } := by
  refine { hi with callers := fun i c h => ?_ }
  have hc := hi.callers i c h
  exact ⟨hc.needed, hc.closer, hc.awaits, hc.resolved, hc.drained, hc.known⟩

theorem Inv.parsed {call : ℕ} {result : Option Json} (hi : Inv s) :
    Inv (s.parsed call result now) := by
  unfold State.parsed
  cases result with
  | none => exact hi.refuse
  | some value =>
    cases hclosed : s.closed with
    | true => exact hi.refuse
    | false => exact hi.accept hclosed

/-- The failure record is taken, and no other call waits for the failed write. -/
theorem Tracked.take (hc : Tracked s c) (hpaid : ¬s.Owed c) :
    Tracked { s with failure := false } c := by
  refine ⟨hc.needed, hc.closer, fun promise hp => ?_, hc.resolved, hc.drained, hc.known⟩
  cases hc.awaits promise hp with
  | inl h => exact .inl h
  | inr h =>
    cases h with
    | inl h => exact .inr (.inl h)
    | inr h =>
      cases h with
      | inl h => exact .inr (.inr (.inl h))
      | inr h =>
        left
        by_contra hsaved
        exact hpaid ⟨hsaved, promise, hp, h.1⟩

theorem Inv.set {result : Option Json} (hi : Inv s)
    (hshared : Unshared s (.set result now)) : Inv (s.set schema result now) := by
  unfold State.set
  dsimp only
  split
  · exact hi.counted.refuse
  · rename_i hclosed
    split
    · rename_i hfailure
      have hi' : Inv { s with failure := false } := by
        refine { hi with callers := fun i c h => ?_ }
        exact (hi.callers i c h).take (hshared (by simpa using hclosed) hfailure i c h)
      exact hi'.counted.refuse
    · split
      · exact hi.counted
      · exact hi.counted.parsed

theorem has_addCaller {stage : Stage} (h : (s.addCaller stage).Has i c) :
    s.Has i c ∨ c = ⟨stage, .waiting s.tail, s.accepted.length⟩ := by
  unfold State.Has State.addCaller at h
  rw [List.getElem?_append] at h
  split at h
  · exact .inl h
  · obtain ⟨_, hc⟩ := List.getElem?_eq_some_iff.mp h
    right
    simpa [eq_comm] using hc

theorem Inv.addCaller {stage : Stage} (hi : Inv s)
    (htracked : Tracked s ⟨stage, .waiting s.tail, s.accepted.length⟩) :
    Inv (s.addCaller stage) := by
  refine { hi with callers := fun i c h => ?_ }
  have hc : Tracked s c := by
    cases has_addCaller h with
    | inl h => exact hi.callers i c h
    | inr h => rw [h]; exact htracked
  exact ⟨hc.needed, hc.closer, hc.awaits, hc.resolved, hc.drained, hc.known⟩

theorem write_queued (h : (s.write now).dirty = true) : (s.write now).queued = true := by
  unfold State.write at h ⊢
  split
  · rename_i hguard
    rw [if_pos hguard] at h
    simp only [Bool.or_eq_true, Bool.not_eq_true'] at hguard
    have hd : s.dirty = true := h
    exact hguard.resolve_left (by simp [hd])
  · rfl

theorem write_closed : State.write { s with closed := true } now =
    { s.write now with closed := true } := by
  unfold State.write
  dsimp only
  split <;> rfl

theorem Inv.flush (hi : Inv s) : Inv (s.flush now) := by
  unfold State.flush
  split
  · exact hi
  · rename_i hclosed
    have hi' : Inv (s.write now) := by
      apply hi.write
      intro _ _ i c h persist hstage
      cases (hi.stage_flush (by simpa using hclosed) h).symm.trans hstage
    apply hi'.addCaller
    refine ⟨Nat.le_refl _, fun hne => absurd rfl hne, fun promise hp => ?_, nofun, nofun,
      fun promise hp => ?_⟩
    · cases hp
      exact hi'.toChain.awaits_tail write_queued
    · cases hp
      exact Nat.le_refl _

theorem Inv.close {persist : Bool} (hi : Inv s) (hshared : Unshared s (.close persist now)) :
    Inv (s.close persist now) := by
  unfold State.close
  dsimp only
  cases persist with
  | true =>
    have hi' : Inv { s.write now with closed := true } := by
      have hw : Inv (s.write now) := hi.write hshared
      refine { hw with timer := fun _ => write_timer, callers := fun i c h => ?_ }
      have hc := hw.callers i c h
      exact ⟨hc.needed, fun hne => ⟨rfl, (hc.closer hne).2⟩, hc.awaits, hc.resolved, hc.drained,
        hc.known⟩
    rw [if_pos rfl, write_closed]
    apply hi'.addCaller
    refine ⟨Nat.le_refl _, fun _ => ⟨rfl, rfl⟩, fun promise hp => ?_, nofun, nofun,
      fun promise hp => ?_⟩
    · cases hp
      exact hi'.toChain.awaits_tail write_queued
    · cases hp
      exact Nat.le_refl _
  | false =>
    rw [if_neg Bool.false_ne_true]
    refine { hi with timer := fun _ => rfl, callers := fun i c h => ?_ }
    cases has_addCaller h with
    | inl h =>
      have hc := hi.callers i c h
      exact ⟨hc.needed, fun hne => ⟨rfl, (hc.closer hne).2⟩, hc.awaits, hc.resolved, hc.drained,
        hc.known⟩
    | inr h =>
      rw [h]
      refine ⟨Nat.le_refl _, fun _ => ⟨rfl, rfl⟩, nofun, nofun, fun _ _ => .inl rfl,
        fun promise hp => ?_⟩
      cases hp
      exact Nat.le_refl _

/-! ## Writes -/

theorem Inv.startWrite (hi : Inv s) (h : s.startWrite = some s') : Inv s' := by
  obtain ⟨hflights, htail, _, _, hs'⟩ := hi.toChain.startWrite_eq h
  refine { hi.toChain.startWrite h with timer := ?_, callers := fun i c h => ?_ }
  · rw [hs']
    exact hi.timer
  subst hs'
  have hc := hi.callers i c h
  refine ⟨hc.needed, hc.closer, fun promise hp => ?_, hc.resolved, hc.drained, hc.known⟩
  cases hc.awaits promise hp with
  | inl h => exact .inl h
  | inr h =>
    cases h with
    | inl h => exact .inr (.inr (.inl ⟨_, List.mem_cons_self, h.2.trans htail, hc.needed⟩))
    | inr h =>
      cases h with
      | inl h =>
        obtain ⟨w, hw, _⟩ := h
        simp [hflights] at hw
      | inr h => exact .inr (.inr (.inr h))

theorem State.Saved.cons {w : Write} (h : s.Saved n) :
    n = 0 ∨ ∃ v ∈ w :: s.written, n ≤ v.version := by
  cases h with
  | inl h => exact .inl h
  | inr h =>
    obtain ⟨v, hv, hle⟩ := h
    exact .inr ⟨v, List.mem_cons_of_mem _ hv, hle⟩

theorem Inv.land {success : Bool} (hi : Inv s) (h : s.land success = some s') : Inv s' := by
  obtain ⟨w, hflights, hstarted, hs'⟩ := hi.toChain.land_eq h
  have hw : ∀ v ∈ s.flights, v = w := by simp [hflights]
  refine { hi.toChain.land h with timer := ?_, callers := fun i c hcaller => ?_ }
  · rw [hs']
    cases success <;> exact hi.timer
  cases success with
  | true =>
    subst hs'
    have hc := hi.callers i c hcaller
    refine ⟨hc.needed, hc.closer, fun promise hp => ?_, fun ho hs => (hc.resolved ho hs).cons,
      fun persist hs => (hc.drained persist hs).imp_right Nat.le_succ_of_le, hc.known⟩
    cases hc.awaits promise hp with
    | inl h => exact .inl h.cons
    | inr h =>
      cases h with
      | inl h => exact .inr (.inl h)
      | inr h =>
        cases h with
        | inl h =>
          obtain ⟨v, hv, _, hle⟩ := h
          exact .inl (.inr ⟨w, List.mem_cons_self, hw v hv ▸ hle⟩)
        | inr h => exact .inr (.inr (.inr ⟨Nat.le_succ_of_le h.1, h.2⟩))
  | false =>
    subst hs'
    have hc := hi.callers i c hcaller
    refine ⟨hc.needed, hc.closer, fun promise hp => ?_, hc.resolved,
      fun persist hs => (hc.drained persist hs).imp_right Nat.le_succ_of_le, hc.known⟩
    cases hc.awaits promise hp with
    | inl h => exact .inl h
    | inr h =>
      cases h with
      | inl h => exact .inr (.inl h)
      | inr h =>
        right; right; right
        cases h with
        | inl h =>
          obtain ⟨_, _, hpromise, _⟩ := h
          exact ⟨Nat.le_of_eq (hpromise.trans hstarted), rfl⟩
        | inr h => exact ⟨Nat.le_succ_of_le h.1, rfl⟩

/-! ## Calls that continue -/

theorem has_setCaller {j : ℕ} {caller : Caller} (h : (s.setCaller i caller).Has j c) :
    c = caller ∨ j ≠ i ∧ s.Has j c := by
  unfold State.Has State.setCaller at h
  by_cases hj : j = i
  · left
    rw [hj, List.getElem?_set_self'] at h
    cases hold : s.callers[i]? with
    | none => simp [hold] at h
    | some old => simpa [hold, eq_comm] using h
  · rw [List.getElem?_set_ne (Ne.symm hj)] at h
    exact .inr ⟨hj, h⟩

/-- A call continues with a success when no failure is on record. -/
theorem Inv.saved_of_settled {promise : ℕ} (hi : Inv s) (hawaits : s.Awaits n promise)
    (hsettled : promise ≤ s.settled) (hfailure : s.failure = false) : s.Saved n := by
  have hchain := hi.chain
  have hstarted := hi.started
  cases hawaits with
  | inl h => exact h
  | inr h =>
    cases h with
    | inl h =>
      simp only [h.1, Bool.toNat_true] at hchain
      omega
    | inr h =>
      cases h with
      | inl h =>
        obtain ⟨w, hw, hpromise, _⟩ := h
        have hpos := List.length_pos_of_mem hw
        omega
      | inr h => cases hfailure.symm.trans h.2

theorem Tracked.drained_of_settled {stage : Stage} {promise needed : ℕ}
    (hc : Tracked s ⟨stage, .waiting promise, needed⟩) (hsettled : promise ≤ s.settled)
    (persist : Bool) (hstage : stage = .drain persist) : s.tail ≤ s.settled := by
  cases hc.drained persist hstage with
  | inl h =>
    cases h
    exact hsettled
  | inr h => exact h

/-- A call of `flush` or `close` ends. -/
theorem Inv.ended {stage : Stage} {promise needed : ℕ} (hi : Inv s)
    (hcaller : s.Has i ⟨stage, .waiting promise, needed⟩) (hsettled : promise ≤ s.settled)
    (hstage : stage ≠ .persist)
    (hshared : s.failure = true → ∀ j c, j ≠ i → s.Has j c → ¬s.Owed c) :
    Inv (if s.failure then { s.setCaller i ⟨stage, .rejected, needed⟩ with failure := false }
      else s.setCaller i ⟨stage, .resolved, needed⟩) := by
  have hc := hi.callers i _ hcaller
  have hdrained := hc.drained_of_settled hsettled
  split
  · rename_i hfailure
    refine { hi with callers := fun j c h => ?_ }
    cases has_setCaller h with
    | inl h =>
      rw [h]
      refine ⟨hc.needed, hc.closer, ?_, nofun, fun persist hs => .inr (hdrained persist hs), nofun⟩
      intro promise hp
      cases stage with
      | drain persist => cases persist <;> cases hp
      | _ => cases hp
    | inr h =>
      have ht := (hi.callers j c h.2).take (hshared hfailure j c h.1 h.2)
      exact ⟨ht.needed, ht.closer, ht.awaits, ht.resolved, ht.drained, ht.known⟩
  · rename_i hfailure
    refine { hi with callers := fun j c h => ?_ }
    cases has_setCaller h with
    | inl h =>
      rw [h]
      refine ⟨hc.needed, hc.closer, ?_, ?_, fun persist hs => .inr (hdrained persist hs), nofun⟩
      · intro promise hp
        cases stage with
        | drain persist => cases persist <;> cases hp
        | _ => cases hp
      · intro _ hfalse
        have hawaits : s.Awaits needed promise := by
          cases stage with
          | flush => exact hc.awaits promise rfl
          | persist => exact absurd rfl hstage
          | drain persist =>
            cases persist with
            | true => exact hc.awaits promise rfl
            | false => exact absurd rfl hfalse
        exact hi.saved_of_settled hawaits hsettled (by simpa using hfailure)
    | inr h =>
      have ht := hi.callers j c h.2
      exact ⟨ht.needed, ht.closer, ht.awaits, ht.resolved, ht.drained, ht.known⟩

theorem Inv.resume (hi : Inv s) (hshared : Unshared s (.resume i)) (h : s.resume i = some s') :
    Inv s' := by
  unfold State.resume at h
  split at h
  · rename_i stage promise needed hcaller
    replace hcaller : s.Has i ⟨stage, .waiting promise, needed⟩ := hcaller
    have hc := hi.callers i _ hcaller
    split at h
    · rename_i hsettled
      cases stage with
      | persist =>
        cases h
        refine { hi with timer := fun _ => rfl, callers := fun j c h => ?_ }
        cases has_setCaller h with
        | inl h =>
          rw [h]
          refine ⟨hc.needed, fun _ => hc.closer nofun, fun promise hp => ?_, nofun,
            fun _ _ => .inl rfl, fun promise hp => ?_⟩
          · cases hp
            exact hc.awaits s.tail rfl
          · cases hp
            exact Nat.le_refl _
        | inr h =>
          have ht := hi.callers j c h.2
          exact ⟨ht.needed, ht.closer, ht.awaits, ht.resolved, ht.drained, ht.known⟩
      | flush =>
        have hi' := hi.ended hcaller hsettled nofun fun hf => hshared hf _ hcaller nofun
        dsimp only at h
        split at h
        all_goals
          cases h
          simpa [*] using hi'
      | drain persist =>
        have hi' := hi.ended hcaller hsettled nofun fun hf => hshared hf _ hcaller nofun
        dsimp only at h
        split at h
        all_goals
          cases h
          simpa [*] using hi'
    · cases h
  · cases h

theorem Inv.step {e : Event} (hi : Inv s) (hshared : Unshared s e)
    (h : (system schema).step s e = some s') : Inv s' := by
  cases e with
  | set result now =>
    cases h
    exact hi.set hshared
  | parsed call result now =>
    have h := (Option.ite_none_right_eq_some.mp h).2
    cases h
    exact hi.counted.parsed
  | flush now =>
    cases h
    exact hi.flush
  | close persist now =>
    cases h
    exact hi.close hshared
  | fire now =>
    obtain ⟨htimer, h⟩ := Option.ite_none_right_eq_some.mp h
    cases h
    apply hi.write
    intro _ _ i c h persist hstage
    -- the timer of a closed runner has been cleared
    have hclosed := ((hi.callers i c h).closer (by rw [hstage]; nofun)).1
    cases htimer.symm.trans (hi.timer hclosed)
  | startWrite => exact hi.startWrite h
  | land success => exact hi.land h
  | resume i => exact hi.resume hshared h

theorem inv_of_reachable (h : (system schema).ReachableWith Unshared s) : Inv s := by
  apply h.invariant
  · intro s hinit
    obtain ⟨initial, rfl⟩ := hinit
    exact .start initial
  · intro s e s' _ hi hshared hstep
    exact hi.step hshared hstep

/-! ## Honest progress -/

private theorem honest_of_inv (hi : Inv s) : Honest s where
  oneAtATime := hi.alone
  inOrder := hi.inOrder
  accepted := hi.log
  logged := hi.logged
  flushed := by
    intro i needed h
    exact (hi.callers i _ h).resolved rfl nofun
  closed := by
    intro i needed h
    have hc := hi.callers i _ h
    have hsaved := hc.resolved rfl nofun
    exact (hc.closer nofun).2 ▸ hsaved
  kept := hi.kept
  latest := hi.value
  quiet := by
    intro i persist needed h
    have htail : s.tail ≤ s.settled := by
      cases h with
      | inl h => exact ((hi.callers i _ h).drained persist rfl).resolve_left nofun
      | inr h => exact ((hi.callers i _ h).drained persist rfl).resolve_left nofun
    unfold State.startWrite
    rw [if_neg]
    omega

private theorem has_setCaller_self {caller : Caller} (h : s.Has i c) :
    (s.setCaller i caller).Has i caller :=
  List.getElem?_set_self (List.getElem?_eq_some_iff.mp h).1

/-- A call continues with a success when no failure is on record. -/
private theorem resume_resolves {stage : Stage} {promise : ℕ} (hfailure : s.failure = false)
    (h : s.Has i ⟨stage, .waiting promise, n⟩) (hsettled : promise ≤ s.settled)
    (hstage : stage ≠ .persist) : s.resume i = some (s.setCaller i ⟨stage, .resolved, n⟩) := by
  have hget : s.callers[i]? = some ⟨stage, .waiting promise, n⟩ := h
  cases stage with
  | persist => exact absurd rfl hstage
  | _ => simp [State.resume, hget, hsettled, hfailure]

private theorem leads_resume {s₀ : State} (h₀ : (system schema).Leads (fun _ _ => True) s₀ s)
    (h : s.resume i = some s') : (system schema).Leads (fun _ _ => True) s₀ s' :=
  .step (a := .resume i) h₀ trivial h

/-- A call that waits for a write whose failure is not on record resolves. -/
private theorem owed_breaks (hfailure : s.failure = false) (h : s.Has i c) (howed : s.Owed c)
    (hcloser : c.stage ≠ .flush → c.needed = s.accepted.length)
    (hknown : ∀ promise, c.outcome = .waiting promise → promise ≤ s.tail) :
    ∃ s', (system schema).Leads (fun _ _ => True) s s' ∧ ¬Honest s' := by
  obtain ⟨hunsaved, promise, hpromise, hsettled⟩ := howed
  obtain ⟨stage, outcome, needed⟩ := c
  cases outcome with
  | resolved => cases stage with
    | drain persist => cases persist <;> cases hpromise
    | _ => cases hpromise
  | rejected => cases stage with
    | drain persist => cases persist <;> cases hpromise
    | _ => cases hpromise
  | waiting p =>
    cases stage with
    | flush =>
      cases hpromise
      have hresume := resume_resolves hfailure h hsettled nofun
      refine ⟨_, leads_resume .refl hresume, fun hhonest => hunsaved ?_⟩
      exact hhonest.flushed i needed (has_setCaller_self h)
    | drain persist =>
      cases persist with
      | false => cases hpromise
      | true =>
        cases hpromise
        have hresume := resume_resolves hfailure h hsettled nofun
        refine ⟨_, leads_resume .refl hresume, fun hhonest => hunsaved ?_⟩
        have hsaved := hhonest.closed i needed (has_setCaller_self h)
        have hneeded : needed = s.accepted.length := hcloser nofun
        rw [hneeded]
        exact hsaved
    | persist =>
      cases hpromise
      let s₁ : State := { s.setCaller i ⟨.drain true, .waiting s.tail, needed⟩ with timer := false }
      have hget : s.callers[i]? = some ⟨.persist, .waiting p, needed⟩ := h
      have hp : p ≤ s.settled := Nat.le_trans (hknown p rfl) hsettled
      have hfirst : s.resume i = some s₁ := by simp [State.resume, hget, hp, s₁]
      have h₁ : s₁.Has i ⟨.drain true, .waiting s.tail, needed⟩ := has_setCaller_self h
      have hresume : s₁.resume i = some (s₁.setCaller i ⟨.drain true, .resolved, needed⟩) :=
        resume_resolves hfailure h₁ hsettled nofun
      refine ⟨_, leads_resume (leads_resume .refl hfirst) hresume, fun hhonest => hunsaved ?_⟩
      have hsaved := hhonest.closed i needed (has_setCaller_self h₁)
      have hneeded : needed = s.accepted.length := hcloser nofun
      rw [hneeded]
      exact hsaved

/-- A call of `close` settles while a promise of the chain is to come. -/
private theorem queued_breaks {persist : Bool} {outcome : Outcome} (htail : s.started < s.tail)
    (hstarted : s.started = s.settled) (h : s.Has i ⟨.drain persist, outcome, n⟩)
    (hsettled : ∀ promise, outcome = .waiting promise → promise ≤ s.settled) :
    ∃ s', (system schema).Leads (fun _ _ => True) s s' ∧ ¬Honest s' := by
  have hstart : ∀ s' : State, s'.started = s.started → s'.tail = s.tail →
      s'.settled = s.settled → s'.startWrite ≠ none := by
    intro s' hst htl hse hnone
    unfold State.startWrite at hnone
    rw [if_pos ⟨by omega, by omega⟩] at hnone
    split at hnone <;> cases hnone
  cases outcome with
  | resolved =>
    refine ⟨s, .refl, fun hhonest => ?_⟩
    exact hstart s rfl rfl rfl (hhonest.quiet i persist n (.inl h))
  | rejected =>
    refine ⟨s, .refl, fun hhonest => ?_⟩
    exact hstart s rfl rfl rfl (hhonest.quiet i persist n (.inr h))
  | waiting promise =>
    have hget : s.callers[i]? = some ⟨.drain persist, .waiting promise, n⟩ := h
    cases hfailure : s.failure with
    | false =>
      have hresume := resume_resolves hfailure h (hsettled promise rfl) nofun
      refine ⟨_, leads_resume .refl hresume, fun hhonest => ?_⟩
      have hnone := hhonest.quiet i persist n (.inl (has_setCaller_self h))
      refine hstart _ ?_ ?_ ?_ hnone <;> rfl
    | true =>
      have hresume : s.resume i = some
          { s.setCaller i ⟨.drain persist, .rejected, n⟩ with failure := false } := by
        simp [State.resume, hget, hsettled promise rfl, hfailure]
      refine ⟨_, leads_resume .refl hresume, fun hhonest => ?_⟩
      have hnone := hhonest.quiet i persist n (.inr (has_setCaller_self h))
      refine hstart _ ?_ ?_ ?_ hnone <;> rfl

private theorem breaks_of_shared {e : Event} (hi : Inv s) (hshared : ¬Unshared s e)
    (h : (system schema).step s e = some s') :
    ∃ s'', (system schema).Leads (fun _ _ => True) s' s'' ∧ ¬Honest s'' := by
  cases e with
  | set result now =>
    simp only [Unshared, not_forall, not_not] at hshared
    obtain ⟨hclosed, hfailure, i, c, hc, howed⟩ := hshared
    have ht := hi.callers i c hc
    have hset : s' = { s with
        calls := s.calls + 1, refused := s.calls :: s.refused, failure := false } := by
      cases h
      simp [State.set, State.refuse, hclosed, hfailure]
    rw [hset]
    exact owed_breaks rfl hc howed (fun hne => (ht.closer hne).2) ht.known
  | resume i =>
    simp only [Unshared, not_forall, not_not] at hshared
    obtain ⟨hfailure, caller, hcaller, hstage, j, c, hne, hc, howed⟩ := hshared
    have ht := hi.callers j c hc
    obtain ⟨stage, outcome, needed⟩ := caller
    have hget : s.callers[i]? = some ⟨stage, outcome, needed⟩ := hcaller
    have hresume : s.resume i = some s' := h
    cases outcome with
    | waiting promise =>
      by_cases hp : promise ≤ s.settled
      · have hs' : s' = { s.setCaller i ⟨stage, .rejected, needed⟩ with failure := false } := by
          cases stage with
          | persist => exact absurd rfl hstage
          | _ => simpa [State.resume, hget, hp, hfailure, eq_comm] using hresume
        have hc' : s'.Has j c := by
          rw [hs']
          exact (List.getElem?_set_ne (Ne.symm hne)).trans hc
        subst hs'
        exact owed_breaks rfl hc' howed (fun hne => (ht.closer hne).2) ht.known
      · simp [State.resume, hget, hp] at hresume
    | _ => simp [State.resume, hget] at hresume
  | close persist now =>
    cases persist with
    | false => exact absurd trivial hshared
    | true =>
      simp only [Unshared, not_forall, not_not] at hshared
      obtain ⟨hd, hq, i, c, hc, persist, hstage⟩ := hshared
      have ht := hi.callers i c hc
      obtain ⟨stage, outcome, needed⟩ := c
      cases hstage
      let queued : State := { s with
        closed := true, timer := false, queued := true, lastWrite := some now, tail := s.tail + 1 }
      have hs' : s' = queued.addCaller .persist := by
        cases h
        simp [State.close, State.write, hd, hq, queued]
      have hlt : i < s.callers.length := (List.getElem?_eq_some_iff.mp hc).1
      have hc' : s'.Has i ⟨.drain persist, outcome, needed⟩ := by
        rw [hs']
        exact (List.getElem?_append_left hlt).trans hc
      have hchain : s.tail = s.started := by simpa [hq] using hi.chain
      have hwaits : ∀ promise, outcome = .waiting promise → promise ≤ s.started := by
        intro promise hp
        exact hchain ▸ ht.known promise hp
      cases hflights : s.flights with
      | nil =>
        have hstarted : s.started = s.settled := by simpa [hflights] using hi.started
        subst hs'
        apply queued_breaks (s := queued.addCaller .persist) _ hstarted hc'
        · exact fun promise hp => Nat.le_trans (hwaits promise hp) (Nat.le_of_eq hstarted)
        · exact Nat.lt_succ_of_le (Nat.le_of_eq hchain.symm)
      | cons w rest =>
        have hstarted : s.started = s.settled + 1 := by
          have hlength := hi.started
          have halone := hi.alone
          rw [hflights, List.length_cons] at hlength halone
          omega
        let landed : State := { queued.addCaller .persist with
          flights := rest, settled := s.settled + 1, written := w :: s.written }
        have hland : (system schema).step s' (.land true) = some landed := by
          subst hs'
          simp [system, step, State.land, State.addCaller, queued, landed, hflights]
        obtain ⟨s'', hleads, hhonest⟩ : ∃ s'', (system schema).Leads (fun _ _ => True) landed s'' ∧
            ¬Honest s'' := by
          subst hs'
          apply queued_breaks (s := landed) _ hstarted hc'
          · exact fun promise hp => Nat.le_trans (hwaits promise hp) (Nat.le_of_eq hstarted)
          · exact Nat.lt_succ_of_le (Nat.le_of_eq hchain.symm)
        exact ⟨s'', .trans (.step .refl trivial hland) hleads, hhonest⟩
  | _ => exact absurd trivial hshared

/-- Progress is honest as long as no call takes the record of a failure for which another one
waits, and no `close(true)` queues a write behind another `close`; the first step that does
either leads to a state that is not honest. -/
theorem progress_honest (h : (system schema).ReachableWith Unshared s) :
    Honest s ∧ ∀ e s', ¬Unshared s e → (system schema).step s e = some s' →
      ∃ s'', (system schema).Leads (fun _ _ => True) s' s'' ∧ ¬Honest s'' := by
  have hi := inv_of_reachable h
  exact ⟨honest_of_inv hi, fun e s' hshared hstep => breaks_of_shared hi hshared hstep⟩

end

namespace ProgressTrace

/-- A failed write is retried with a newer value, and the second flush resolves. -/
def retried : List Event :=
  [.set (some (.num 1)) 0, .startWrite, .set (some (.num 2)) 10, .flush 20, .land false,
    .startWrite, .land true, .resume 0, .flush 30, .resume 1]

/-- `await Promise.allSettled([ctx.progress.flush(), ctx.progress.flush()])`. -/
def shared : List Event :=
  [.set (some (.num 1)) 0, .startWrite, .flush 0, .flush 0, .land false, .resume 0, .resume 1]

/-- The only call takes the failure record. -/
def single (s : State) : Event → Bool
  | .set .. => !s.failure
  | .resume _ => !s.failure || s.callers.length = 1
  | .close true _ => s.callers.isEmpty
  | _ => true

def flushed (s : State) : Bool :=
  match s.callers with
  | [_, ⟨.flush, .resolved, needed⟩] => decide (0 < needed)
  | _ => false

end ProgressTrace

theorem progress_honest_retried :
    ∃ s, ProgressTrace.flushed s = true ∧ Honest s ∧
      ∀ e s', ¬Unshared s e → (system false).step s e = some s' →
        ∃ s'', (system false).Leads (fun _ _ => True) s' s'' ∧ ¬Honest s'' := by
  have hshared : ∀ s e, ProgressTrace.single s e = true → Unshared s e := by
    intro s e h
    cases e with
    | set result now =>
      intro _ hfailure
      simp [ProgressTrace.single, hfailure] at h
    | resume i =>
      intro hfailure caller hcaller _ j c hne hc
      simp only [ProgressTrace.single, hfailure, Bool.not_true, Bool.false_or,
        decide_eq_true_eq] at h
      have hi := (List.getElem?_eq_some_iff.mp hcaller).1
      have hj := (List.getElem?_eq_some_iff.mp hc).1
      omega
    | close persist now =>
      cases persist with
      | true =>
        intro _ _ i c hc
        have hempty := List.isEmpty_iff.mp h
        simp [State.Has, hempty] at hc
      | false => exact trivial
    | _ => exact trivial
  have hinit : (system false).Init (.start none) := ⟨none, rfl⟩
  obtain ⟨s, hreach, htest⟩ := (system false).exists_reachableWith_of_runWith ProgressTrace.retried
    ProgressTrace.flushed hshared hinit (by decide)
  exact ⟨s, htest, progress_honest hreach⟩

/-- The second flush resolves, and no value has been written. -/
theorem flush_not_honest : ¬∀ s, (system false).Reachable s → Honest s := by
  intro hclaim
  have hinit : (system false).Init (.start none) := ⟨none, rfl⟩
  obtain ⟨s, hreach, htest⟩ := (system false).exists_reachable_of_run ProgressTrace.shared
    (fun s => ProgressTrace.flushed s && s.written.isEmpty) hinit (by decide)
  simp only [Bool.and_eq_true] at htest
  obtain ⟨hflushed, hwritten⟩ := htest
  unfold ProgressTrace.flushed at hflushed
  split at hflushed
  · rename_i c needed hcallers
    have hc : s.Has 1 ⟨.flush, .resolved, needed⟩ := by simp [State.Has, hcallers]
    cases (hclaim s hreach).flushed 1 needed hc with
    | inl h =>
      rw [h] at hflushed
      cases hflushed
    | inr h =>
      rw [List.isEmpty_iff.mp hwritten] at h
      obtain ⟨w, hw, _⟩ := h
      cases hw
  · cases hflushed

end BetterGraphileWorker.ProgressRunner
