-- SUMMARY: whileReachable of shutdown.ts: the pauses and probes beside the work it waits for, and how its promise settles.
import BetterGraphileWorker.Library.Runs
import BetterGraphileWorker.Library.Table
import BetterGraphileWorker.Worker.Durations
import BetterGraphileWorker.Worker.Requests
import Mathlib.Data.List.TakeWhile

/-!
# Shutdown probes

`whileReachable` races a shutdown against a loop that pauses and then asks the database for
`SELECT 1`. Both are suspended at awaits, so the work can settle at any point of the loop, and
settling reaches the loop through an abort signal. Times are milliseconds.
-/

namespace BetterGraphileWorker.Shutdown

/-! ## Options -/

/-- The longest delay that `setTimeout` keeps. -/
def maxDelay : ℕ := 2147483647

structure DatabaseProbe where
  interval : ℕ
  timeout : ℕ
  interval_le : interval ≤ maxDelay
  timeout_pos : 1 ≤ timeout
  timeout_le : timeout ≤ maxDelay

structure DatabaseProbeOptions where
  interval : Option JsNumber
  timeout : Option JsNumber

/-- An `assertInteger` of `resolveDatabaseProbe`, with the integer. -/
def assertDelay (value : JsNumber) (label : String) (min : ℕ) :
    Except Thrown {n : ℕ // min ≤ n ∧ n ≤ maxDelay} :=
  match h : Durations.assertInteger value label min maxDelay with
  | .ok n => .ok ⟨n, Durations.assertInteger_bounds h⟩
  | .error message => .error (.error "RangeError" message)

/-- The option is nothing, a boolean or an object. -/
def resolveDatabaseProbe (option : Option (Bool ⊕ DatabaseProbeOptions)) :
    Except Thrown (Option DatabaseProbe) :=
  match option with
  | none | some (.inl false) => .ok none
  | some (.inl true) => resolve ⟨none, none⟩
  | some (.inr options) => resolve options
where
  resolve (options : DatabaseProbeOptions) : Except Thrown (Option DatabaseProbe) := do
    let interval ← assertDelay (options.interval.getD (.finite 1000)) "probeDatabase.interval" 0
    let timeout ← assertDelay (options.timeout.getD (.finite 2000)) "probeDatabase.timeout" 1
    return some ⟨interval.1, timeout.1, interval.2.2, timeout.2.1, timeout.2.2⟩

/-! ## The race -/

/-- What a client rejects with: `error instanceof Error`, and `'severity' in error`. -/
structure ClientError where
  isError : Bool
  severity : Bool

inductive Connection where
  | connecting
  | querying
  /-- The promise `answered` has settled. -/
  | closed

inductive Loop where
  /-- The pool has no options, and there is no loop. -/
  | absent
  /-- Awaits the `pause` that set the timer. -/
  | pausing (timer : ℕ)
  /-- The pause has resolved. -/
  | paused
  /-- `databaseAnswers` awaits its race. -/
  | probing (timer client : ℕ) (connection : Connection) (race : Option (Except ClientError Unit))
  /-- `databaseAnswers` has returned. -/
  | probed (answered : Bool)
  /-- It returned `settled`. -/
  | returned
  | threw

inductive Failure where
  | thrown (error : Thrown)
  /-- `DatabaseUnreachableError`. -/
  | unreachable

structure State where
  now : ℕ
  work : Option (Except Thrown Unit)
  aborted : Bool
  /-- The timers that are set, with the time when each is due. -/
  timers : Table ℕ ℕ
  nextTimer : ℕ
  /-- The listeners on the signal, each under the timer set beside it. -/
  listeners : List ℕ
  clients : ℕ
  /-- The clients whose `end()` was called. -/
  ended : List ℕ
  loop : Loop
  /-- The promise `settled` has settled. -/
  settled : Bool
  /-- How the returned promise has settled. -/
  result : Option (Except Failure Unit)

inductive Event where
  | tick
  | workSettles (result : Except Thrown Unit)
  /-- The callback of `work.finally`. -/
  | abort
  | settle
  | fire (timer : ℕ)
  /-- The loop goes on after its pause. -/
  | wake
  | connected
  /-- The promise `answered` settles. -/
  | response (result : Except ClientError Unit)
  /-- `databaseAnswers` goes on after its race. -/
  | conclude
  /-- The loop goes on after `databaseAnswers`. -/
  | decide

/-- Node sets a delay that is out of range to a millisecond. -/
def setTimeout (ms : ℕ) : ℕ := if 1 ≤ ms ∧ ms ≤ maxDelay then ms else 1

/-- What `databaseAnswers` returns. -/
def answers : Except ClientError Unit → Bool
  | .ok _ => true
  | .error error => error.isError && error.severity

def like : Except Thrown Unit → Except Failure Unit
  | .ok _ => .ok ()
  | .error error => .error (.thrown error)

namespace State

variable (s : State)

def pause (probe : DatabaseProbe) : State :=
  { s with
    timers := s.timers.insert s.nextTimer (s.now + setTimeout probe.interval)
    nextTimer := s.nextTimer + 1
    listeners := s.listeners ++ [s.nextTimer]
    loop := .pausing s.nextTimer }

/-- `databaseAnswers` up to its race. -/
def probe (probe : DatabaseProbe) : State :=
  { s with
    timers := s.timers.insert s.nextTimer (s.now + setTimeout probe.timeout)
    nextTimer := s.nextTimer + 1
    listeners := s.listeners ++ [s.nextTimer]
    clients := s.clients + 1
    loop := .probing s.nextTimer s.clients .connecting none }

/-- A listener hears of the abort. -/
def heard (listener : ℕ) : State :=
  match s.loop with
  | .pausing timer =>
    if timer = listener then { s with timers := s.timers.erase timer, loop := .paused } else s
  | .probing timer client connection race =>
    if timer = listener then
      { s with loop := .probing timer client connection (race.or (some (.ok ()))) }
    else s
  | _ => s

def initial (probe : DatabaseProbe) (options : Bool) : State :=
  let s : State := ⟨0, none, false, ∅, 0, [], 0, [], .absent, false, none⟩
  if options then s.pause probe else s

def exec (probe : DatabaseProbe) : Event → Option State
  | .tick => some { s with now := s.now + 1 }
  | .workSettles result =>
    match s.work with
    | none => some { s with work := some result }
    | some _ => none
  | .abort =>
    match s.loop, s.work, s.aborted with
    | .absent, _, _ => none
    | _, some _, false =>
      some (s.listeners.foldl State.heard { s with aborted := true, listeners := [] })
    | _, _, _ => none
  | .settle =>
    match s.loop, s.work with
    | .absent, some result =>
      if s.settled then none
      else some { s with settled := true, result := s.result.or (some (like result)) }
    | _, some result =>
      if s.aborted && !s.settled then
        some { s with settled := true, result := s.result.or (some (like result)) }
      else none
    | _, none => none
  | .fire timer =>
    match s.timers.get? timer with
    | some due =>
      if due ≤ s.now then
        let s := { s with timers := s.timers.erase timer }
        match s.loop with
        | .pausing timer' =>
          if timer' = timer then some { s with listeners := s.listeners.erase timer, loop := .paused }
          else some s
        | .probing timer' client connection race =>
          if timer' = timer then
            some { s with
              loop := .probing timer' client connection (race.or (some (.error ⟨true, false⟩))) }
          else some s
        | _ => some s
      else none
    | none => none
  | .wake =>
    match s.loop with
    | .paused => if s.aborted then some { s with loop := .returned } else some (s.probe probe)
    | _ => none
  | .connected =>
    match s.loop with
    | .probing timer client .connecting race =>
      some { s with loop := .probing timer client .querying race }
    | _ => none
  | .response result =>
    match s.loop, result with
    | .probing timer client .querying race, result =>
      some { s with loop := .probing timer client .closed (race.or (some result)) }
    | .probing timer client .connecting race, .error error =>
      some { s with loop := .probing timer client .closed (race.or (some (.error error))) }
    | _, _ => none
  | .conclude =>
    match s.loop with
    | .probing timer client _ (some result) =>
      some { s with
        timers := s.timers.erase timer
        listeners := s.listeners.erase timer
        ended := s.ended ++ [client]
        loop := .probed (answers result) }
    | _ => none
  | .decide =>
    match s.loop with
    | .probed answered =>
      if s.aborted then some { s with loop := .returned }
      else if answered then some (s.pause probe)
      else some { s with loop := .threw, result := s.result.or (some (.error .unreachable)) }
    | _ => none

end State

/-- `whileReachable`, of a pool with or without connection options. -/
def system (probe : DatabaseProbe) (options : Bool) : TransitionSystem State Event where
  Init s := s = .initial probe options
  step s e := s.exec probe e

/-- With every event so far and its time. -/
def recorded (probe : DatabaseProbe) (options : Bool) :
    TransitionSystem (State × List (ℕ × Event)) Event :=
  (system probe options).observe [] fun s e _ past => past ++ [(s.now, e)]

variable {probe : DatabaseProbe} {options : Bool} {s s' : State} {e : Event}

/-! ## Timers, listeners and clients -/

/-- The timer that the loop has set. -/
def Loop.timer? : Loop → Option ℕ
  | .pausing timer | .probing timer _ _ _ => some timer
  | _ => none

/-- The timer that the loop waits for, unless something else comes first. -/
def Loop.pending? : Loop → Option ℕ
  | .pausing timer | .probing timer _ _ none => some timer
  | _ => none

/-- The client of the probe. -/
def Loop.client? : Loop → Option ℕ
  | .probing _ client _ _ => some client
  | _ => none

structure State.Inv (s : State) : Prop where
  timers : ∀ timer due, s.timers.get? timer = some due → s.loop.timer? = some timer
  listeners : s.listeners = if s.aborted then [] else s.loop.timer?.toList
  clients : s.ended ++ s.loop.client?.toList = List.range s.clients
  pending : ∀ timer, s.loop.pending? = some timer →
    s.aborted = false ∧ ∃ due, s.timers.get? timer = some due
  absent : s.loop = .absent → s.aborted = false ∧ s.clients = 0
  returned : s.loop = .returned → s.aborted = true
  threw : s.loop = .threw → s.result.isSome = true
  worked : s.aborted = true → s.work.isSome = true
  settled : s.settled = true → s.result.isSome = true
  result : ∀ r, s.result = some r → r = .error .unreachable ∧ s.loop ≠ .absent ∨
    ∃ work, s.work = some work ∧ r = like work

/-- What a step does. -/
inductive Step (probe : DatabaseProbe) (s : State) : Event → State → Prop where
  | tick : Step probe s .tick { s with now := s.now + 1 }
  | workSettles (result : Except Thrown Unit) (hwork : s.work = none) :
      Step probe s (.workSettles result) { s with work := some result }
  | abortPausing {timer : ℕ} (hloop : s.loop = .pausing timer) (hwork : s.work.isSome = true)
      (haborted : s.aborted = false) : Step probe s .abort
        { s with aborted := true, timers := s.timers.erase timer, listeners := [], loop := .paused }
  | abortProbing {timer client : ℕ} {connection : Connection} {race : Option (Except ClientError Unit)}
      (hloop : s.loop = .probing timer client connection race) (hwork : s.work.isSome = true)
      (haborted : s.aborted = false) : Step probe s .abort
        { s with
          aborted := true
          listeners := []
          loop := .probing timer client connection (race.or (some (.ok ()))) }
  | abort (habsent : s.loop ≠ .absent) (hloop : s.loop.timer? = none) (hwork : s.work.isSome = true)
      (haborted : s.aborted = false) : Step probe s .abort { s with aborted := true, listeners := [] }
  | settle {work : Except Thrown Unit} (hwork : s.work = some work) (hsettled : s.settled = false)
      (haborted : s.loop = .absent ∨ s.aborted = true) : Step probe s .settle
        { s with settled := true, result := s.result.or (some (like work)) }
  | firePausing {timer due : ℕ} (hloop : s.loop = .pausing timer)
      (htimer : s.timers.get? timer = some due) (hdue : due ≤ s.now) : Step probe s (.fire timer)
        { s with
          timers := s.timers.erase timer
          listeners := s.listeners.erase timer
          loop := .paused }
  | fireProbing {timer due client : ℕ} {connection : Connection}
      {race : Option (Except ClientError Unit)} (hloop : s.loop = .probing timer client connection race)
      (htimer : s.timers.get? timer = some due) (hdue : due ≤ s.now) : Step probe s (.fire timer)
        { s with
          timers := s.timers.erase timer
          loop := .probing timer client connection (race.or (some (.error ⟨true, false⟩))) }
  | wakeAborted (hloop : s.loop = .paused) (haborted : s.aborted = true) :
      Step probe s .wake { s with loop := .returned }
  | wake (hloop : s.loop = .paused) (haborted : s.aborted = false) : Step probe s .wake (s.probe probe)
  | connected {timer client : ℕ} {race : Option (Except ClientError Unit)}
      (hloop : s.loop = .probing timer client .connecting race) : Step probe s .connected
        { s with loop := .probing timer client .querying race }
  | response {timer client : ℕ} {connection : Connection} {race : Option (Except ClientError Unit)}
      (result : Except ClientError Unit) (hloop : s.loop = .probing timer client connection race) :
      Step probe s (.response result)
        { s with loop := .probing timer client .closed (race.or (some result)) }
  | conclude {timer client : ℕ} {connection : Connection} {result : Except ClientError Unit}
      (hloop : s.loop = .probing timer client connection (some result)) : Step probe s .conclude
        { s with
          timers := s.timers.erase timer
          listeners := s.listeners.erase timer
          ended := s.ended ++ [client]
          loop := .probed (answers result) }
  | decideAborted {answered : Bool} (hloop : s.loop = .probed answered) (haborted : s.aborted = true) :
      Step probe s .decide { s with loop := .returned }
  | decideAnswered (hloop : s.loop = .probed true) (haborted : s.aborted = false) :
      Step probe s .decide (s.pause probe)
  | decideUnanswered (hloop : s.loop = .probed false) (haborted : s.aborted = false) :
      Step probe s .decide
        { s with loop := .threw, result := s.result.or (some (.error .unreachable)) }

private theorem step_of_abort (hinv : s.Inv) (h : s.exec probe .abort = some s') :
    Step probe s .abort s' := by
  have hlisteners := hinv.listeners
  simp only [State.exec] at h
  split at h
  · cases h
  · rename_i work hwork haborted habsent
    rw [haborted] at hlisteners
    obtain rfl := Option.some.inj h
    have hwork : s.work.isSome = true := by rw [hwork]; rfl
    cases hloop : s.loop with
    | absent => exact absurd hloop habsent
    | pausing timer =>
      simp only [hlisteners, hloop, Loop.timer?, Option.toList_some, Bool.false_eq_true, if_false,
        List.foldl_cons, List.foldl_nil, State.heard, if_true]
      exact .abortPausing hloop hwork haborted
    | probing timer client connection race =>
      simp only [hlisteners, hloop, Loop.timer?, Option.toList_some, Bool.false_eq_true, if_false,
        List.foldl_cons, List.foldl_nil, State.heard, if_true]
      exact .abortProbing hloop hwork haborted
    | paused | probed answered | returned | threw =>
      have htimer : s.loop.timer? = none := by rw [hloop]; rfl
      simp only [hlisteners, htimer, Option.toList_none, Bool.false_eq_true, if_false, List.foldl_nil]
      rw [← hloop]
      exact .abort habsent htimer hwork haborted
  · cases h

private theorem step_of_fire (hinv : s.Inv) {timer : ℕ} (h : s.exec probe (.fire timer) = some s') :
    Step probe s (.fire timer) s' := by
  simp only [State.exec] at h
  split at h
  · rename_i due htimer
    have hset := hinv.timers timer due htimer
    split at h
    · rename_i hdue
      split at h
      · rename_i timer' hloop
        rw [hloop] at hset
        obtain rfl := Option.some.inj hset
        rw [if_pos rfl] at h
        obtain rfl := Option.some.inj h
        exact .firePausing hloop htimer hdue
      · rename_i timer' client connection race hloop
        rw [hloop] at hset
        obtain rfl := Option.some.inj hset
        rw [if_pos rfl] at h
        obtain rfl := Option.some.inj h
        exact .fireProbing hloop htimer hdue
      · rename_i hpausing hprobing
        cases hloop : s.loop with
        | pausing timer' => exact absurd hloop (hpausing timer')
        | probing timer' client connection race =>
          exact absurd hloop (hprobing timer' client connection race)
        | _ => rw [hloop] at hset; cases hset
    · cases h
  · cases h

private theorem step_of_settle (h : s.exec probe .settle = some s') : Step probe s .settle s' := by
  simp only [State.exec] at h
  split at h
  · rename_i work hloop hwork
    simp only [Option.ite_none_left_eq_some, Bool.not_eq_true, Option.some.injEq] at h
    obtain ⟨hsettled, rfl⟩ := h
    exact .settle hwork hsettled (.inl hloop)
  · rename_i work hwork _
    simp only [Option.ite_none_right_eq_some, Bool.and_eq_true, Bool.not_eq_true', Option.some.injEq] at h
    obtain ⟨⟨haborted, hsettled⟩, rfl⟩ := h
    exact .settle hwork hsettled (.inr haborted)
  · cases h

theorem step_of_exec (hinv : s.Inv) (h : s.exec probe e = some s') : Step probe s e s' := by
  cases e with
  | tick =>
    obtain rfl := Option.some.inj h
    exact .tick
  | workSettles result =>
    simp only [State.exec] at h
    split at h
    · rename_i hwork
      obtain rfl := Option.some.inj h
      exact .workSettles result hwork
    · cases h
  | abort => exact step_of_abort hinv h
  | settle => exact step_of_settle h
  | fire timer => exact step_of_fire hinv h
  | wake =>
    simp only [State.exec] at h
    split at h
    · rename_i hloop
      split at h
      · rename_i haborted
        obtain rfl := Option.some.inj h
        exact .wakeAborted hloop haborted
      · rename_i haborted
        obtain rfl := Option.some.inj h
        exact .wake hloop (Bool.eq_false_iff.mpr haborted)
    · cases h
  | connected =>
    simp only [State.exec] at h
    split at h
    · rename_i hloop
      obtain rfl := Option.some.inj h
      exact .connected hloop
    · cases h
  | response result =>
    simp only [State.exec] at h
    split at h
    · rename_i hloop
      obtain rfl := Option.some.inj h
      exact .response _ hloop
    · rename_i hloop
      obtain rfl := Option.some.inj h
      exact .response _ hloop
    · cases h
  | conclude =>
    simp only [State.exec] at h
    split at h
    · rename_i hloop
      obtain rfl := Option.some.inj h
      exact .conclude hloop
    · cases h
  | decide =>
    simp only [State.exec] at h
    split at h
    · rename_i answered hloop
      split at h
      · rename_i haborted
        obtain rfl := Option.some.inj h
        exact .decideAborted hloop haborted
      · rename_i haborted
        have haborted := Bool.eq_false_iff.mpr haborted
        cases answered with
        | true =>
          obtain rfl := Option.some.inj h
          exact .decideAnswered hloop haborted
        | false =>
          obtain rfl := Option.some.inj h
          exact .decideUnanswered hloop haborted
    · cases h

@[simp] theorem Loop.pending?_of_timer? {loop : Loop} (h : loop.timer? = none) :
    loop.pending? = none := by
  cases loop <;> first | rfl | cases h

theorem State.inv_initial : (State.initial probe options).Inv := by
  cases options with
  | false =>
    refine ⟨?_, rfl, rfl, ?_, fun _ => ⟨rfl, rfl⟩, ?_, ?_, ?_, ?_, ?_⟩ <;> intros <;> contradiction
  | true =>
    refine ⟨?_, rfl, rfl, ?_, ?_, ?_, ?_, ?_, ?_, ?_⟩
    · intro timer due htimer
      simp only [State.initial, if_true, State.pause, Table.get?_insert] at htimer
      split at htimer
      · rename_i heq
        rw [heq]
        rfl
      · cases htimer
    · intro timer htimer
      obtain rfl := Option.some.inj htimer
      exact ⟨rfl, _, Table.get?_insert_self⟩
    all_goals intros; contradiction

/-- A step of the loop leaves the promises alone. -/
private theorem State.Inv.loop (hinv : s.Inv)
    (htimers : ∀ timer due, s'.timers.get? timer = some due → s'.loop.timer? = some timer)
    (hlisteners : s'.listeners = if s'.aborted then [] else s'.loop.timer?.toList)
    (hclients : s'.ended ++ s'.loop.client?.toList = List.range s'.clients)
    (hpending : ∀ timer, s'.loop.pending? = some timer →
      s'.aborted = false ∧ ∃ due, s'.timers.get? timer = some due)
    (hloop : s'.loop ≠ .absent ∧ s'.loop ≠ .threw)
    (hreturned : s'.loop = .returned → s'.aborted = true)
    (haborted : s'.aborted = true → s.work.isSome = true)
    (hwork : s'.work = s.work) (hresult : s'.result = s.result) (hsettled : s'.settled = s.settled) :
    s'.Inv where
  timers := htimers
  listeners := hlisteners
  clients := hclients
  pending := hpending
  absent h := absurd h hloop.1
  returned := hreturned
  threw h := absurd h hloop.2
  worked h := by rw [hwork]; exact haborted h
  settled h := by rw [hresult]; exact hinv.settled (hsettled ▸ h)
  result r h := by
    rw [hwork]
    obtain ⟨hr, -⟩ | hr := hinv.result r (hresult ▸ h)
    · exact .inl ⟨hr, hloop.1⟩
    · exact .inr hr

private theorem State.Inv.no_timer (hinv : s.Inv) (hloop : s.loop.timer? = none) (timer : ℕ) :
    s.timers.get? timer = none := by
  cases htimer : s.timers.get? timer with
  | none => rfl
  | some due =>
    have hset := hinv.timers timer due htimer
    rw [hloop] at hset
    cases hset

private theorem State.Inv.erased (hinv : s.Inv) {timer : ℕ} (hloop : s.loop.timer? = some timer)
    (timer' : ℕ) : (s.timers.erase timer).get? timer' = none := by
  rw [Table.get?_erase]
  split
  · rfl
  · rename_i hne
    cases htimer : s.timers.get? timer' with
    | none => rfl
    | some due =>
      have hset := hinv.timers timer' due htimer
      rw [hloop] at hset
      exact absurd (Option.some.inj hset).symm hne

/-- A timer is set where none was. -/
private theorem State.Inv.set (hinv : s.Inv) (hloop : s.loop.timer? = none) {timer due timer' due' : ℕ}
    (h : (s.timers.insert timer due).get? timer' = some due') : timer' = timer ∧ due' = due := by
  rw [Table.get?_insert] at h
  split at h
  · rename_i heq
    exact ⟨heq, (Option.some.inj h).symm⟩
  · rw [hinv.no_timer hloop] at h
    cases h

/-- The loop pauses. -/
private theorem State.Inv.pauses (hinv : s.Inv) (hloop : s.loop.timer? = none)
    (hclient : s.loop.client? = none) (haborted : s.aborted = false) : (s.pause probe).Inv := by
  have hlisteners := hinv.listeners
  have hclients := hinv.clients
  simp only [haborted, hloop, Bool.false_eq_true, if_false, Option.toList_none] at hlisteners
  simp only [hclient, Option.toList_none, List.append_nil] at hclients
  refine hinv.loop ?_ ?_ ?_ ?_ (by simp [State.pause]) (by simp [State.pause]) ?_ rfl rfl rfl
  · intro timer due htimer
    obtain ⟨rfl, rfl⟩ := hinv.set hloop htimer
    rfl
  · simp [State.pause, haborted, hlisteners, Loop.timer?]
  · simp [State.pause, Loop.client?, hclients]
  · intro timer htimer
    obtain rfl := Option.some.inj htimer
    exact ⟨haborted, _, Table.get?_insert_self⟩
  · intro h
    exact hinv.worked h

/-- A probe begins. -/
private theorem State.Inv.probes (hinv : s.Inv) (hloop : s.loop.timer? = none)
    (hclient : s.loop.client? = none) (haborted : s.aborted = false) : (s.probe probe).Inv := by
  have hlisteners := hinv.listeners
  have hclients := hinv.clients
  simp only [haborted, hloop, Bool.false_eq_true, if_false, Option.toList_none] at hlisteners
  simp only [hclient, Option.toList_none, List.append_nil] at hclients
  refine hinv.loop ?_ ?_ ?_ ?_ (by simp [State.probe]) (by simp [State.probe]) ?_ rfl
    rfl rfl
  · intro timer due htimer
    obtain ⟨rfl, rfl⟩ := hinv.set hloop htimer
    rfl
  · simp [State.probe, haborted, hlisteners, Loop.timer?]
  · simp [State.probe, Loop.client?, hclients, List.range_succ]
  · intro timer htimer
    obtain rfl := Option.some.inj htimer
    exact ⟨haborted, _, Table.get?_insert_self⟩
  · intro h
    exact hinv.worked h

/-- The loop comes to a state that waits for nothing. -/
private theorem State.Inv.unwatched (hinv : s.Inv)
    (htimers : ∀ timer, s'.timers.get? timer = none) (hlisteners : s'.listeners = [])
    (hclients : s'.ended = List.range s'.clients)
    (hloop : s'.loop = .paused ∨ (∃ answered, s'.loop = .probed answered) ∨
      s'.loop = .returned ∧ s'.aborted = true)
    (haborted : s'.aborted = true → s.work.isSome = true) (hwork : s'.work = s.work)
    (hresult : s'.result = s.result) (hsettled : s'.settled = s.settled) :
    s'.Inv := by
  have hnone : s'.loop.timer? = none ∧ s'.loop.client? = none ∧ s'.loop.pending? = none := by
    obtain h | ⟨answered, h⟩ | ⟨h, -⟩ := hloop <;> rw [h] <;> exact ⟨rfl, rfl, rfl⟩
  refine hinv.loop ?_ ?_ ?_ ?_ ?_ ?_ haborted hwork hresult hsettled
  · intro timer due htimer
    rw [htimers] at htimer
    cases htimer
  · simp [hlisteners, hnone.1]
  · simpa [hnone.2.1] using hclients
  · intro timer htimer
    rw [hnone.2.2] at htimer
    cases htimer
  · obtain h | ⟨answered, h⟩ | ⟨h, -⟩ := hloop <;> simp [h]
  · intro hreturned
    obtain h | ⟨answered, h⟩ | ⟨-, h⟩ := hloop
    · rw [h] at hreturned
      cases hreturned
    · rw [h] at hreturned
      cases hreturned
    · exact h

theorem State.Inv.exec (hinv : s.Inv) (h : Step probe s e s') : s'.Inv := by
  have hlisteners := hinv.listeners
  have hclients := hinv.clients
  cases h with
  | tick => exact { hinv with }
  | workSettles result hwork =>
    refine { hinv with worked := fun _ => rfl, result := fun r hr => ?_ }
    obtain hr | ⟨work, hsome, -⟩ := hinv.result r hr
    · exact .inl hr
    · rw [hwork] at hsome
      cases hsome
  | @abortPausing timer hloop hwork haborted =>
    simp only [hloop, Loop.client?, Option.toList_none, List.append_nil] at hclients
    have htimer : s.loop.timer? = some timer := by rw [hloop]; rfl
    exact hinv.unwatched (hinv.erased htimer) rfl hclients (.inl rfl) (fun _ => hwork) rfl rfl rfl
  | @abortProbing timer client connection race hloop hwork haborted =>
    have htimers := hinv.timers
    simp only [hloop] at hclients htimers
    refine hinv.loop htimers rfl hclients ?_ (by simp) (by simp) (fun _ => hwork) rfl rfl rfl
    intro timer' hpending
    cases race <;> cases hpending
  | abort habsent hloop hwork haborted =>
    refine { hinv with
      listeners := rfl, pending := ?_, absent := ?_, returned := fun _ => rfl, worked := fun _ => hwork }
    · intro timer hpending
      rw [Loop.pending?_of_timer? hloop] at hpending
      cases hpending
    · intro h
      exact absurd h habsent
  | @settle work hwork hsettled haborted =>
    refine { hinv with threw := fun _ => ?_, settled := fun _ => ?_, result := fun r hr => ?_ }
    · cases s.result <;> rfl
    · cases s.result <;> rfl
    · simp only [Option.or_eq_some_iff, Option.some.injEq] at hr
      obtain hr | ⟨-, rfl⟩ := hr
      · exact hinv.result r hr
      · exact .inr ⟨work, hwork, rfl⟩
  | @firePausing timer due hloop htimer hdue =>
    simp only [hloop, Loop.timer?, Loop.client?, Option.toList_none, List.append_nil,
      Option.toList_some] at hclients hlisteners
    have hset : s.loop.timer? = some timer := by rw [hloop]; rfl
    obtain ⟨haborted, -⟩ := hinv.pending timer (by rw [hloop]; rfl)
    refine hinv.unwatched (hinv.erased hset) ?_ hclients (.inl rfl) hinv.worked rfl rfl rfl
    simp [hlisteners, haborted]
  | @fireProbing timer due client connection race hloop htimer hdue =>
    have hset : s.loop.timer? = some timer := by rw [hloop]; rfl
    simp only [hloop] at hclients hlisteners
    refine hinv.loop ?_ hlisteners hclients ?_ (by simp) (by simp) hinv.worked rfl rfl rfl
    · intro timer' due' hget
      rw [hinv.erased hset] at hget
      cases hget
    · intro timer' hpending
      cases race <;> cases hpending
  | wakeAborted hloop haborted =>
    simp only [hloop, haborted, Loop.client?, Option.toList_none, List.append_nil, if_true]
      at hclients hlisteners
    exact hinv.unwatched (hinv.no_timer (by rw [hloop]; rfl)) hlisteners hclients
      (.inr (.inr ⟨rfl, haborted⟩)) hinv.worked rfl rfl rfl
  | wake hloop haborted => exact hinv.probes (by rw [hloop]; rfl) (by rw [hloop]; rfl) haborted
  | @connected timer client race hloop =>
    have htimers := hinv.timers
    have hpending := hinv.pending
    simp only [hloop] at hclients hlisteners htimers hpending
    refine hinv.loop htimers hlisteners hclients ?_ (by simp) (by simp) hinv.worked rfl rfl rfl
    cases race <;> exact hpending
  | @response timer client connection race result hloop =>
    have htimers := hinv.timers
    simp only [hloop] at hclients hlisteners htimers
    refine hinv.loop htimers hlisteners hclients ?_ (by simp) (by simp) hinv.worked rfl rfl rfl
    intro timer' hpending
    cases race <;> cases hpending
  | @conclude timer client connection result hloop =>
    have hset : s.loop.timer? = some timer := by rw [hloop]; rfl
    simp only [hloop, Loop.timer?, Loop.client?, Option.toList_some] at hclients hlisteners
    refine hinv.unwatched (hinv.erased hset) ?_ hclients (.inr (.inl ⟨_, rfl⟩)) hinv.worked rfl rfl rfl
    rw [hlisteners]
    cases s.aborted <;> simp
  | decideAborted hloop haborted =>
    simp only [hloop, haborted, Loop.client?, Option.toList_none, List.append_nil, if_true]
      at hclients hlisteners
    exact hinv.unwatched (hinv.no_timer (by rw [hloop]; rfl)) hlisteners hclients
      (.inr (.inr ⟨rfl, haborted⟩)) hinv.worked rfl rfl rfl
  | decideAnswered hloop haborted => exact hinv.pauses (by rw [hloop]; rfl) (by rw [hloop]; rfl) haborted
  | decideUnanswered hloop haborted =>
    have hnone : s.loop.timer? = none := by rw [hloop]; rfl
    simp only [hloop, haborted, Loop.timer?, Loop.client?, Option.toList_none, List.append_nil]
      at hclients hlisteners
    refine ⟨?_, ?_, ?_, ?_, by simp, by simp, fun _ => ?_, hinv.worked, fun _ => ?_, fun r hr => ?_⟩
    · intro timer due htimer
      rw [hinv.no_timer hnone] at htimer
      cases htimer
    · simp [hlisteners, haborted, Loop.timer?]
    · simpa [Loop.client?] using hclients
    · intro timer hpending
      cases hpending
    · cases s.result <;> rfl
    · cases s.result <;> rfl
    · simp only [Option.or_eq_some_iff, Option.some.injEq] at hr
      obtain hr | ⟨-, rfl⟩ := hr
      · obtain ⟨hr, -⟩ | hr := hinv.result r hr
        · exact .inl ⟨hr, by simp⟩
        · exact .inr hr
      · exact .inl ⟨rfl, by simp⟩

theorem State.inv_reachable (h : (system probe options).Reachable s) : s.Inv := by
  refine h.invariant (I := State.Inv) ?_ ?_
  · rintro s rfl
    exact State.inv_initial
  · intro s e s' _ hinv _ hstep
    exact hinv.exec (step_of_exec hinv hstep)

/-! ## What the probes were told -/

def Event.isAbort : Event → Bool
  | .abort => true
  | _ => false

def Event.isWake : Event → Bool
  | .wake => true
  | _ => false

/-- How the race of `databaseAnswers` settles with an event, if it is the first such. -/
def Event.race : Event → Option (Except ClientError Unit)
  | .response result => some result
  | .fire _ => some (.error ⟨true, false⟩)
  | .abort => some (.ok ())
  | _ => none

abbrev Past := List (ℕ × Event)

/-- When the probes began. -/
def probes (past : Past) : List ℕ :=
  ((past.takeWhile fun p => !p.2.isAbort).filter fun p => p.2.isWake).map Prod.fst

/-- What has happened since the last probe began at `started`. -/
structure During (probe : DatabaseProbe) (started : ℕ) (during : Past) : Prop where
  last : ∀ p ∈ during, p.2.isWake = false
  timely : ∀ now timer, (now, .fire timer) ∈ during → started + probe.timeout ≤ now

/-- The last probe has returned `answered`, as the first event to settle its race says. -/
def Concluded (probe : DatabaseProbe) (answered : Bool) (past : Past) : Prop :=
  ∃ before started during ended after,
    past = before ++ (started, .wake) :: (during ++ (ended, .conclude) :: after) ∧
    During probe started (during ++ (ended, .conclude) :: after) ∧
    ∃ race, during.findSome? (fun p => p.2.race) = some race ∧ answered = answers race

/-- The last probe got no answer, and the loop went on from it before it heard of the work. -/
def Silent (probe : DatabaseProbe) (past : Past) : Prop :=
  ∃ before now after, past = before ++ (now, .decide) :: after ∧ Concluded probe false before ∧
    ∀ p ∈ before, p.2.isAbort = false

def State.Evidence (probe : DatabaseProbe) (s : State) (past : Past) : Prop :=
  match s.loop with
  | .pausing timer => ∀ due, s.timers.get? timer = some due →
    ∀ started ∈ probes past, started + probe.interval ≤ due
  | .paused => s.aborted = false → ∀ started ∈ probes past, started + probe.interval ≤ s.now
  | .probing timer _ _ race => ∃ before started during,
    past = before ++ (started, .wake) :: during ∧ During probe started during ∧
    race = during.findSome? (fun p => p.2.race) ∧
    ∀ due, s.timers.get? timer = some due → started + probe.timeout ≤ due
  | .probed answered => Concluded probe answered past
  | _ => True

structure Tracked (probe : DatabaseProbe) (s : State) (past : Past) : Prop where
  aborted : s.aborted = past.any fun p => p.2.isAbort
  times : ∀ p ∈ past, p.1 ≤ s.now
  count : (probes past).length = s.clients
  spaced : (probes past).Pairwise fun started started' => started + probe.interval ≤ started'
  evidence : s.Evidence probe past
  silent : s.result = some (.error .unreachable) → Silent probe past

variable {past : Past} {answered : Bool} {started now : ℕ}

theorem setTimeout_interval : probe.interval ≤ setTimeout probe.interval := by
  have hle := probe.interval_le
  unfold setTimeout
  split <;> omega

theorem setTimeout_timeout : setTimeout probe.timeout = probe.timeout :=
  if_pos ⟨probe.timeout_pos, probe.timeout_le⟩

theorem probes_append (now : ℕ) (e : Event) : probes (past ++ [(now, e)]) =
    if e.isWake && !(past.any fun p => p.2.isAbort) then probes past ++ [now] else probes past := by
  unfold probes
  cases haborted : past.any fun p => p.2.isAbort with
  | true =>
    obtain ⟨p, hp, habort⟩ := List.any_eq_true.mp haborted
    rw [List.takeWhile_append, if_neg]
    · simp
    · intro hlength
      have hall := List.takeWhile_eq_self_iff.mp ((List.takeWhile_prefix _).eq_of_length hlength) p hp
      rw [habort] at hall
      cases hall
  | false =>
    have hall : ∀ p ∈ past, (!p.2.isAbort) = true := by
      intro p hp
      rw [List.any_eq_false.mp haborted p hp |> Bool.eq_false_iff.mpr]
      rfl
    rw [List.takeWhile_append_of_pos hall, List.takeWhile_eq_self_iff.mpr hall]
    cases e <;> simp [Event.isWake, Event.isAbort]

theorem probes_append_of_not_wake (h : e.isWake = false) : probes (past ++ [(now, e)]) = probes past := by
  simp [probes_append, h]

theorem During.append {during : Past} (h : During probe started during) (hwake : e.isWake = false)
    (hfire : ∀ timer, e = .fire timer → started + probe.timeout ≤ now) :
    During probe started (during ++ [(now, e)]) where
  last p hp := by
    obtain hp | hp := List.mem_append.mp hp
    · exact h.last p hp
    · rw [List.mem_singleton.mp hp]
      exact hwake
  timely now' timer hmem := by
    obtain hmem | hmem := List.mem_append.mp hmem
    · exact h.timely now' timer hmem
    · obtain ⟨rfl, he⟩ := Prod.ext_iff.mp (List.mem_singleton.mp hmem)
      exact hfire timer he.symm

theorem Concluded.append (h : Concluded probe answered past) (hwake : e.isWake = false)
    (hfire : ∀ timer, e ≠ .fire timer) : Concluded probe answered (past ++ [(now, e)]) := by
  obtain ⟨before, started, during, ended, after, rfl, hduring, hrace⟩ := h
  refine ⟨before, started, during, ended, after ++ [(now, e)], by simp, ?_, hrace⟩
  have happend : During probe started ((during ++ (ended, .conclude) :: after) ++ [(now, e)]) :=
    hduring.append hwake fun timer he => absurd he (hfire timer)
  simpa using happend

theorem Silent.append (h : Silent probe past) : Silent probe (past ++ [(now, e)]) := by
  obtain ⟨before, now', after, rfl, hconcluded, hnone⟩ := h
  exact ⟨before, now', after ++ [(now, e)], by simp, hconcluded, hnone⟩

/-- An event that settles no race changes nothing for the loop. -/
private theorem State.Evidence.frame (h : s.Evidence probe past) (hloop : s'.loop = s.loop)
    (htimers : s'.timers = s.timers) (hnow : s.now ≤ s'.now)
    (haborted : s'.aborted = false → s.aborted = false) (hwake : e.isWake = false)
    (hrace : e.race = none) : s'.Evidence probe (past ++ [(now, e)]) := by
  have hfire : ∀ timer, e ≠ .fire timer := by
    rintro timer rfl
    cases hrace
  unfold State.Evidence at h ⊢
  rw [hloop]
  split at h
  · rw [htimers, probes_append_of_not_wake hwake]
    exact h
  · rw [probes_append_of_not_wake hwake]
    intro hnot started hmem
    exact (h (haborted hnot) started hmem).trans hnow
  · obtain ⟨before, started, during, rfl, hduring, hsame, hdue⟩ := h
    refine ⟨before, started, during ++ [(now, e)], by simp, ?_, ?_, by rw [htimers]; exact hdue⟩
    · exact hduring.append hwake fun timer he => absurd he (hfire timer)
    · simp [List.findSome?_append, hsame, hrace]
  · exact h.append hwake hfire
  · trivial

/-- An event settles the race of a probe. -/
private theorem State.Evidence.raced {timer client : ℕ} {connection connection' : Connection}
    {race : Option (Except ClientError Unit)} {result : Except ClientError Unit}
    (h : s.Evidence probe past) (hloop : s.loop = .probing timer client connection race)
    (hloop' : s'.loop = .probing timer client connection' (race.or (some result)))
    (htimers : ∀ due, s'.timers.get? timer = some due → s.timers.get? timer = some due)
    (hrace : e.race = some result) (hwake : e.isWake = false)
    (hfire : ∀ timer', e = .fire timer' → ∃ due, s.timers.get? timer = some due ∧ due ≤ now) :
    s'.Evidence probe (past ++ [(now, e)]) := by
  simp only [State.Evidence, hloop] at h
  simp only [State.Evidence, hloop']
  obtain ⟨before, started, during, rfl, hduring, rfl, hdue⟩ := h
  refine ⟨before, started, during ++ [(now, e)], by simp, ?_, ?_, fun due htimer => hdue due (htimers due htimer)⟩
  · refine hduring.append hwake fun timer' he => ?_
    obtain ⟨due, htimer, hle⟩ := hfire timer' he
    exact (hdue due htimer).trans hle
  · simp [List.findSome?_append, hrace]

private theorem Tracked.append (h : Tracked probe s past)
    (haborted : s'.aborted = (s.aborted || e.isAbort)) (hnow : s.now ≤ s'.now)
    (hprobes : e.isWake = false ∨ s.aborted = true) (hclients : s'.clients = s.clients)
    (hevidence : s'.Evidence probe (past ++ [(s.now, e)]))
    (hsilent : s'.result = some (.error .unreachable) →
      s.result = some (.error .unreachable) ∨ Silent probe (past ++ [(s.now, e)])) :
    Tracked probe s' (past ++ [(s.now, e)]) := by
  have hsame : probes (past ++ [(s.now, e)]) = probes past := by
    rw [probes_append, ← h.aborted]
    obtain hwake | haborted := hprobes
    · simp [hwake]
    · simp [haborted]
  refine ⟨?_, ?_, ?_, ?_, hevidence, ?_⟩
  · simp [haborted, h.aborted]
  · intro p hp
    obtain hp | hp := List.mem_append.mp hp
    · exact (h.times p hp).trans hnow
    · rw [List.mem_singleton.mp hp]
      exact hnow
  · rw [hsame, hclients]
    exact h.count
  · rw [hsame]
    exact h.spaced
  · intro hresult
    obtain hresult | hnow := hsilent hresult
    · exact (h.silent hresult).append
    · exact hnow

theorem Tracked.probes_le (h : Tracked probe s past) (hmem : started ∈ probes past) : started ≤ s.now := by
  obtain ⟨p, hp, rfl⟩ := List.mem_map.mp hmem
  exact h.times p ((List.takeWhile_prefix _).subset (List.mem_filter.mp hp).1)

private theorem Silent.of_or {work : Except Thrown Unit} {result : Option (Except Failure Unit)}
    (h : result.or (some (like work)) = some (.error .unreachable)) :
    result = some (.error .unreachable) := by
  simp only [Option.or_eq_some_iff, Option.some.injEq] at h
  obtain h | ⟨-, h⟩ := h
  · exact h
  · cases work <;> cases h

/-- A probe begins. -/
private theorem Tracked.wake (h : Tracked probe s past) (hloop : s.loop = .paused)
    (haborted : s.aborted = false) : Tracked probe (s.probe probe) (past ++ [(s.now, .wake)]) := by
  have hevidence := h.evidence
  simp only [State.Evidence, hloop] at hevidence
  have hprobes : probes (past ++ [(s.now, .wake)]) = probes past ++ [s.now] := by
    rw [probes_append, ← h.aborted, haborted]
    rfl
  refine ⟨?_, ?_, ?_, ?_, ?_, fun hresult => (h.silent hresult).append⟩
  · simp [State.probe, h.aborted, Event.isAbort]
  · intro p hp
    obtain hp | hp := List.mem_append.mp hp
    · exact h.times p hp
    · rw [List.mem_singleton.mp hp]
      exact le_rfl
  · rw [hprobes, List.length_append, h.count]
    rfl
  · rw [hprobes, List.pairwise_append]
    refine ⟨h.spaced, List.pairwise_singleton _ _, ?_⟩
    intro started hmem started' hlast
    rw [List.mem_singleton.mp hlast]
    exact hevidence haborted started hmem
  · refine ⟨past, s.now, [], rfl, ⟨by simp, by simp⟩, rfl, fun due htimer => ?_⟩
    simp only [State.probe, Table.get?_insert_self, Option.some.injEq, setTimeout_timeout] at htimer
    exact htimer.le

/-- The loop pauses again. -/
private theorem Tracked.pause (h : Tracked probe s past) :
    (s.pause probe).Evidence probe (past ++ [(s.now, .decide)]) := by
  intro due htimer started hmem
  rw [probes_append_of_not_wake rfl] at hmem
  simp only [State.pause, Table.get?_insert_self, Option.some.injEq] at htimer
  have hle := h.probes_le hmem
  have hinterval : probe.interval ≤ setTimeout probe.interval := setTimeout_interval
  omega

theorem Tracked.exec (hinv : s.Inv) (h : Tracked probe s past) (hstep : Step probe s e s') :
    Tracked probe s' (past ++ [(s.now, e)]) := by
  have hevidence := h.evidence
  cases hstep with
  | tick =>
    refine h.append (by simp [Event.isAbort]) (Nat.le_succ _) (.inl rfl) rfl ?_ .inl
    exact hevidence.frame rfl rfl (Nat.le_succ _) id rfl rfl
  | workSettles result hwork =>
    refine h.append (by simp [Event.isAbort]) le_rfl (.inl rfl) rfl ?_ .inl
    exact hevidence.frame rfl rfl le_rfl id rfl rfl
  | abortPausing hloop hwork haborted =>
    exact h.append (by simp [Event.isAbort]) le_rfl (.inl rfl) rfl (fun hnot => by cases hnot) .inl
  | abortProbing hloop hwork haborted =>
    refine h.append (by simp [Event.isAbort]) le_rfl (.inl rfl) rfl ?_ .inl
    exact hevidence.raced hloop rfl (fun _ => id) rfl rfl fun timer he => by cases he
  | abort habsent hloop hwork haborted =>
    refine h.append (by simp [Event.isAbort]) le_rfl (.inl rfl) rfl ?_ .inl
    unfold State.Evidence at hevidence ⊢
    simp only
    split at hevidence
    · rename_i hpausing
      rw [hpausing] at hloop
      cases hloop
    · intro hnot
      cases hnot
    · rename_i hprobing
      rw [hprobing] at hloop
      cases hloop
    · exact hevidence.append rfl (by simp)
    · trivial
  | settle hwork hsettled haborted =>
    refine h.append (by simp [Event.isAbort]) le_rfl (.inl rfl) rfl ?_ fun hresult => .inl (Silent.of_or hresult)
    exact hevidence.frame rfl rfl le_rfl id rfl rfl
  | @firePausing timer due hloop htimer hdue =>
    refine h.append (by simp [Event.isAbort]) le_rfl (.inl rfl) rfl ?_ .inl
    simp only [State.Evidence, hloop] at hevidence
    intro _ started hmem
    rw [probes_append_of_not_wake rfl] at hmem
    exact (hevidence due htimer started hmem).trans hdue
  | @fireProbing timer due client connection race hloop htimer hdue =>
    refine h.append (by simp [Event.isAbort]) le_rfl (.inl rfl) rfl ?_ .inl
    refine hevidence.raced hloop rfl ?_ rfl rfl fun _ _ => ⟨due, htimer, hdue⟩
    intro due' hget
    rw [hinv.erased (by rw [hloop]; rfl)] at hget
    cases hget
  | wakeAborted hloop haborted =>
    exact h.append (by simp [Event.isAbort]) le_rfl (.inr haborted) rfl trivial .inl
  | wake hloop haborted => exact h.wake hloop haborted
  | @connected timer client race hloop =>
    refine h.append (by simp [Event.isAbort]) le_rfl (.inl rfl) rfl ?_ .inl
    simp only [State.Evidence, hloop] at hevidence
    obtain ⟨before, started, during, rfl, hduring, rfl, hdue⟩ := hevidence
    refine ⟨before, started, during ++ [(s.now, .connected)], by simp, ?_, ?_, hdue⟩
    · exact hduring.append rfl fun timer he => by cases he
    · simp [List.findSome?_append, Event.race]
  | @response timer client connection race result hloop =>
    refine h.append (by simp [Event.isAbort]) le_rfl (.inl rfl) rfl ?_ .inl
    exact hevidence.raced hloop rfl (fun _ => id) rfl rfl fun timer he => by cases he
  | @conclude timer client connection result hloop =>
    refine h.append (by simp [Event.isAbort]) le_rfl (.inl rfl) rfl ?_ .inl
    simp only [State.Evidence, hloop] at hevidence
    obtain ⟨before, started, during, rfl, hduring, hrace, hdue⟩ := hevidence
    refine ⟨before, started, during, s.now, [], by simp, ?_, result, hrace.symm, rfl⟩
    exact hduring.append rfl fun timer he => by cases he
  | decideAborted hloop haborted =>
    exact h.append (by simp [Event.isAbort]) le_rfl (.inl rfl) rfl trivial .inl
  | decideAnswered hloop haborted =>
    exact h.append (by simp [Event.isAbort, State.pause]) le_rfl (.inl rfl) rfl h.pause .inl
  | decideUnanswered hloop haborted =>
    refine h.append (by simp [Event.isAbort]) le_rfl (.inl rfl) rfl trivial fun _ => .inr ?_
    simp only [State.Evidence, hloop] at hevidence
    have hnone := h.aborted
    rw [haborted] at hnone
    exact ⟨past, s.now, [], rfl, hevidence, fun p hp =>
      Bool.eq_false_iff.mpr (List.any_eq_false.mp hnone.symm p hp)⟩

theorem tracked_reachable (h : (recorded probe options).Reachable (s, past)) : Tracked probe s past := by
  suffices hall : ∀ p : State × Past, (recorded probe options).Reachable p → Tracked probe p.1 p.2 from
    hall (s, past) h
  intro p hp
  refine hp.invariant (I := fun p => Tracked probe p.1 p.2) ?_ ?_
  · rintro ⟨s, past⟩ ⟨rfl, rfl⟩
    refine ⟨?_, by simp, ?_, .nil, ?_, ?_⟩ <;> cases options
    · rfl
    · rfl
    · rfl
    · rfl
    · trivial
    · intro due _ started hmem
      cases hmem
    · intro hresult
      cases hresult
    · intro hresult
      cases hresult
  · rintro ⟨s, past⟩ e ⟨s', past'⟩ hreach htracked - hstep
    obtain ⟨hstep, hnote⟩ := TransitionSystem.observe_step_iff.mp hstep
    simp only at hstep hnote ⊢
    rw [hnote]
    have hinv := State.inv_reachable (hreach.of_observe fun _ _ _ => trivial)
    exact htracked.exec hinv (step_of_exec hinv hstep)

/-! ## How the promise settles -/

theorem absent_iff (h : (system probe options).Reachable s) : s.loop = .absent ↔ options = false := by
  refine h.invariant (I := fun s => s.loop = .absent ↔ options = false) ?_ ?_
  · rintro s rfl
    cases options <;> simp [State.initial, State.pause]
  · intro s e s' hreach habsent _ hstep
    have hinv := State.inv_reachable hreach
    rw [← habsent]
    cases step_of_exec hinv hstep <;> simp_all [State.pause, State.probe]

structure Contract (probe : DatabaseProbe) (options : Bool) (s : State) (past : Past) : Prop where
  /-- The promise settles like the work, or tells that a probe got no answer. -/
  settles : ∀ result, s.result = some result →
    (∃ work, s.work = some work ∧ result = like work) ∨
      options = true ∧ result = .error .unreachable ∧ Silent probe past
  follows : s.settled = true → s.result.isSome = true
  /-- Once the work has settled, the loop waits for no timer and for no client. -/
  quiet : s.aborted = true → s.loop.pending? = none
  spaced : (probes past).Pairwise fun started started' => started + probe.interval ≤ started'
  count : s.clients = (probes past).length
  never : options = false → s.clients = 0
  /-- Only the probe in progress has a client. -/
  clients : s.ended ++ s.loop.client?.toList = List.range s.clients
  one : s.listeners.length ≤ 1 ∧ ∀ timer timer', (s.timers.get? timer).isSome = true →
    (s.timers.get? timer').isSome = true → timer = timer'
  tidy : s.loop = .returned ∨ s.loop = .threw →
    s.listeners = [] ∧ ∀ timer, s.timers.get? timer = none

/--
However the work, the clients and the timers interleave, the promise settles like the work unless
a probe met silence before; and the loop leaves nothing behind.
-/
theorem whileReachable_contract (h : (recorded probe options).Reachable (s, past)) :
    Contract probe options s past := by
  have hreach : (system probe options).Reachable s := h.of_observe fun _ _ _ => trivial
  have hinv := State.inv_reachable hreach
  have htracked := tracked_reachable h
  refine ⟨?_, hinv.settled, ?_, htracked.spaced, htracked.count.symm, ?_, hinv.clients, ⟨?_, ?_⟩, ?_⟩
  · intro result hresult
    obtain ⟨rfl, habsent⟩ | hlike := hinv.result result hresult
    · have hoptions : options = true := by
        cases options with
        | true => rfl
        | false => exact absurd ((absent_iff hreach).mpr rfl) habsent
      exact .inr ⟨hoptions, rfl, htracked.silent hresult⟩
    · exact .inl hlike
  · intro haborted
    cases hpending : s.loop.pending? with
    | none => rfl
    | some timer =>
      rw [(hinv.pending timer hpending).1] at haborted
      cases haborted
  · intro hoptions
    exact (hinv.absent ((absent_iff hreach).mpr hoptions)).2
  · rw [hinv.listeners]
    split
    · exact Nat.zero_le _
    · cases s.loop.timer? <;> simp
  · intro timer timer' hset hset'
    obtain ⟨due, hdue⟩ := Option.isSome_iff_exists.mp hset
    obtain ⟨due', hdue'⟩ := Option.isSome_iff_exists.mp hset'
    exact Option.some.inj ((hinv.timers timer due hdue).symm.trans (hinv.timers timer' due' hdue'))
  · intro hover
    have hnone : s.loop.timer? = none := by
      obtain hloop | hloop := hover <;> rw [hloop] <;> rfl
    refine ⟨?_, hinv.no_timer hnone⟩
    rw [hinv.listeners, hnone]
    split <;> rfl

/-! ## Runs in which nothing comes late -/

/-- No timer is due, and no promise that has settled has a function waiting to go on. -/
def State.rests (s : State) : Bool :=
  !(s.timers.any fun _ due => due ≤ s.now) && (s.work.isNone || s.settled) &&
    match s.loop with
    | .paused | .probed _ | .probing _ _ _ (some _) => false
    | _ => true

/-- The clock goes on when all is done that can be. -/
def Prompt (p : State × Past) (e : Event) : Prop :=
  match e with
  | .tick => p.1.rests = true
  | _ => True

def Event.isDecide : Event → Bool
  | .decide => true
  | _ => false

/-- When the last probe was over, or the call. -/
def lastOver (past : Past) : ℕ := (((past.filter fun p => p.2.isDecide).map Prod.fst).getLast?).getD 0

/-- What is left of the pause and of the probe after it. -/
def State.InTime (probe : DatabaseProbe) (s : State) (past : Past) : Prop :=
  match s.loop with
  | .pausing timer => ∀ due, s.timers.get? timer = some due →
    due ≤ lastOver past + setTimeout probe.interval ∧ s.now ≤ due
  | .paused => s.aborted = false → s.now ≤ lastOver past + setTimeout probe.interval
  | .probing timer _ _ _ => s.now ≤ lastOver past + setTimeout probe.interval + probe.timeout ∧
    ∀ due, s.timers.get? timer = some due → due ≤ lastOver past + setTimeout probe.interval + probe.timeout
  | .probed _ => s.now ≤ lastOver past + setTimeout probe.interval + probe.timeout
  | _ => True

theorem lastOver_append (h : e.isDecide = false) : lastOver (past ++ [(now, e)]) = lastOver past := by
  simp [lastOver, List.filter_append, h]

theorem lastOver_append_decide : lastOver (past ++ [(now, .decide)]) = now := by
  simp [lastOver, List.filter_append, Event.isDecide]

private theorem State.InTime.frame (h : s.InTime probe past) (hloop : s'.loop = s.loop)
    (htimers : s'.timers = s.timers) (hnow : s'.now = s.now)
    (haborted : s'.aborted = false → s.aborted = false) (hdecide : e.isDecide = false) :
    s'.InTime probe (past ++ [(now, e)]) := by
  unfold State.InTime at h ⊢
  rw [hloop, htimers, hnow, lastOver_append hdecide]
  split at h
  · exact h
  · exact fun hnot => h (haborted hnot)
  · exact h
  · exact h
  · trivial

/-- The clock goes on while a timer is set that is not due. -/
private theorem State.InTime.tick (hinv : s.Inv) (h : s.InTime probe past) (hrests : s.rests = true) :
    State.InTime probe { s with now := s.now + 1 } (past ++ [(now, .tick)]) := by
  simp only [State.rests, Bool.and_eq_true, Bool.not_eq_true'] at hrests
  obtain ⟨⟨hdue, -⟩, hloop⟩ := hrests
  have hlater : ∀ timer due, s.timers.get? timer = some due → s.now < due := by
    intro timer due htimer
    simp only [Table.any, List.any_eq_false, decide_eq_true_eq, not_le] at hdue
    exact hdue (timer, due) (Table.get?_eq_some_iff.mp htimer)
  unfold State.InTime at h ⊢
  simp only [lastOver_append (e := .tick) rfl]
  split at h
  · intro due htimer
    exact ⟨(h due htimer).1, hlater _ due htimer⟩
  · rename_i hpaused
    rw [hpaused] at hloop
    cases hloop
  · rename_i timer client connection race hprobing
    cases race with
    | some result =>
      rw [hprobing] at hloop
      cases hloop
    | none =>
      obtain ⟨-, due, htimer⟩ := hinv.pending timer (by rw [hprobing]; rfl)
      have hnow := hlater timer due htimer
      exact ⟨by have := h.2 due htimer; omega, h.2⟩
  · rename_i answered hprobed
    rw [hprobed] at hloop
    cases hloop
  · trivial

theorem State.InTime.exec (hinv : s.Inv) (h : s.InTime probe past) (hstep : Step probe s e s')
    (hprompt : Prompt (s, past) e) : s'.InTime probe (past ++ [(s.now, e)]) := by
  have hintime := h
  unfold State.InTime at hintime
  cases hstep with
  | tick => exact h.tick hinv hprompt
  | workSettles result hwork => exact h.frame rfl rfl rfl id rfl
  | abortPausing hloop hwork haborted => exact fun hnot => by cases hnot
  | abortProbing hloop hwork haborted =>
    simp only [hloop] at hintime
    simp only [State.InTime, lastOver_append (e := .abort) rfl]
    exact hintime
  | abort habsent hloop hwork haborted => exact h.frame rfl rfl rfl (fun hnot => by cases hnot) rfl
  | settle hwork hsettled haborted => exact h.frame rfl rfl rfl id rfl
  | @firePausing timer due hloop htimer hdue =>
    simp only [hloop] at hintime
    intro _
    rw [lastOver_append rfl]
    have hnow := hintime due htimer
    exact hnow.2.trans hnow.1
  | @fireProbing timer due client connection race hloop htimer hdue =>
    simp only [hloop] at hintime
    simp only [State.InTime, lastOver_append (e := .fire timer) rfl]
    refine ⟨hintime.1, fun due' hget => ?_⟩
    rw [hinv.erased (by rw [hloop]; rfl)] at hget
    cases hget
  | wakeAborted hloop haborted => trivial
  | wake hloop haborted =>
    simp only [hloop] at hintime
    have hnow := hintime haborted
    simp only [State.InTime, State.probe, lastOver_append (e := .wake) rfl]
    refine ⟨by omega, fun due htimer => ?_⟩
    rw [Table.get?_insert_self, setTimeout_timeout] at htimer
    obtain rfl := Option.some.inj htimer
    omega
  | connected hloop =>
    simp only [hloop] at hintime
    simp only [State.InTime, lastOver_append (e := .connected) rfl]
    exact hintime
  | response result hloop =>
    simp only [hloop] at hintime
    simp only [State.InTime, lastOver_append (e := .response result) rfl]
    exact hintime
  | conclude hloop =>
    simp only [hloop] at hintime
    simp only [State.InTime, lastOver_append (e := .conclude) rfl]
    exact hintime.1
  | decideAborted hloop haborted => trivial
  | decideAnswered hloop haborted =>
    simp only [State.InTime, State.pause, lastOver_append_decide]
    intro due htimer
    rw [Table.get?_insert_self] at htimer
    obtain rfl := Option.some.inj htimer
    omega
  | decideUnanswered hloop haborted => trivial

/-- Either the settling of the work is as new as the clock, or it has reached the promise. -/
def Reached (s : State) (past : Past) : Prop :=
  ∀ now result, (now, .workSettles result) ∈ past → s.work.isSome = true ∧ (now < s.now → s.settled = true)

theorem Reached.exec (h : Reached s past) (hstep : Step probe s e s') (hprompt : Prompt (s, past) e) :
    Reached s' (past ++ [(s.now, e)]) := by
  intro now result hmem
  obtain hmem | hmem := List.mem_append.mp hmem
  · obtain ⟨hwork, hlate⟩ := h now result hmem
    cases hstep with
    | tick =>
      simp only [Prompt, State.rests, Bool.and_eq_true, Bool.or_eq_true] at hprompt
      refine ⟨hwork, fun _ => ?_⟩
      obtain hnone | hsettled := hprompt.1.2
      · rw [Option.isNone_iff_eq_none.mp hnone] at hwork
        cases hwork
      · exact hsettled
    | workSettles _ _ => exact ⟨rfl, hlate⟩
    | settle _ _ _ => exact ⟨hwork, fun _ => rfl⟩
    | _ => exact ⟨hwork, hlate⟩
  · obtain ⟨rfl, he⟩ := Prod.ext_iff.mp (List.mem_singleton.mp hmem)
    simp only at he
    subst he
    cases hstep with
    | workSettles _ _ => exact ⟨rfl, fun hlt => absurd hlt (lt_irrefl _)⟩

/-- The loop is at work while the promise and the work are pending. -/
private theorem State.InTime.le (hinv : s.Inv) (h : s.InTime probe past) (habsent : s.loop ≠ .absent)
    (hwork : s.work = none) (hresult : s.result = none) :
    s.now ≤ lastOver past + setTimeout probe.interval + probe.timeout := by
  have haborted : s.aborted = false := by
    cases haborted : s.aborted with
    | false => rfl
    | true =>
      have hsome := hinv.worked haborted
      rw [hwork] at hsome
      cases hsome
  unfold State.InTime at h
  cases hloop : s.loop with
  | absent => exact absurd hloop habsent
  | pausing timer =>
    obtain ⟨-, due, htimer⟩ := hinv.pending timer (by rw [hloop]; rfl)
    simp only [hloop] at h
    have hnow := h due htimer
    omega
  | paused =>
    simp only [hloop] at h
    have hnow := h haborted
    omega
  | probing timer client connection race =>
    simp only [hloop] at h
    omega
  | probed answered =>
    simp only [hloop] at h
    omega
  | returned =>
    rw [hinv.returned hloop] at haborted
    cases haborted
  | threw =>
    have hsome := hinv.threw hloop
    rw [hresult] at hsome
    cases hsome

/--
If timers and promises are served in time, a silent database is noticed within a pause and a
probe of the last answer, and the promise settles before the clock goes on once the work has.
-/
theorem whileReachable_prompt (h : (recorded probe options).ReachableWith Prompt (s, past)) :
    (options = true → s.work = none → s.result = none →
      s.now ≤ lastOver past + setTimeout probe.interval + probe.timeout) ∧
    ∀ now result, (now, .workSettles result) ∈ past → now < s.now → s.result.isSome = true := by
  suffices hall : ∀ p : State × Past, (recorded probe options).ReachableWith Prompt p →
      p.1.InTime probe p.2 ∧ Reached p.1 p.2 by
    obtain ⟨hintime, hreached⟩ := hall (s, past) h
    have hreach : (system probe options).Reachable s := h.of_observe fun _ _ _ => trivial
    have hinv := State.inv_reachable hreach
    refine ⟨fun hoptions hwork hresult => ?_, fun now result hmem hlt => ?_⟩
    · refine hintime.le hinv (fun habsent => ?_) hwork hresult
      rw [(absent_iff hreach).mp habsent] at hoptions
      cases hoptions
    · exact hinv.settled ((hreached now result hmem).2 hlt)
  intro p hp
  refine hp.invariant (I := fun p => p.1.InTime probe p.2 ∧ Reached p.1 p.2) ?_ ?_
  · rintro ⟨s, past⟩ ⟨rfl, rfl⟩
    refine ⟨?_, fun now result hmem => by cases hmem⟩
    cases options with
    | false => trivial
    | true =>
      intro due htimer
      simp only [State.initial, State.pause, if_true, Table.get?_insert_self, Option.some.injEq] at htimer
      subst htimer
      exact ⟨le_rfl, Nat.zero_le _⟩
  · rintro ⟨s, past⟩ e ⟨s', past'⟩ hreach ⟨hintime, hreached⟩ hprompt hstep
    obtain ⟨hstep, hnote⟩ := TransitionSystem.observe_step_iff.mp hstep
    simp only at hstep hnote ⊢
    rw [hnote]
    have hinv := State.inv_reachable (hreach.of_observe fun _ _ _ => trivial)
    have hstep := step_of_exec hinv hstep
    exact ⟨hintime.exec hinv hstep hprompt, hreached.exec hstep hprompt⟩

/-- Whatever keeps the clock from going on can be done. -/
theorem exists_step_of_not_rests (h : s.rests = false) : ∃ e, (s.exec probe e).isSome = true ∧ e ≠ .tick := by
  simp only [State.rests, Bool.and_eq_false_iff, Bool.not_eq_false', Bool.or_eq_false_iff] at h
  obtain (hdue | ⟨hwork, hsettled⟩) | hloop := h
  · obtain ⟨⟨timer, due⟩, hmem, hdue⟩ := List.any_eq_true.mp hdue
    refine ⟨.fire timer, ?_, by simp⟩
    simp only [State.exec, Table.get?_eq_some_iff.mpr hmem, of_decide_eq_true hdue, if_true]
    split
    · split <;> rfl
    · split <;> rfl
    · rfl
  · obtain ⟨work, hwork⟩ := Option.isSome_iff_exists.mp (by simpa using hwork)
    cases haborted : s.aborted with
    | true =>
      refine ⟨.settle, ?_, by simp⟩
      cases hloop : s.loop <;> simp [State.exec, hloop, hwork, haborted, hsettled]
    | false =>
      cases hloop : s.loop with
      | absent => exact ⟨.settle, by simp [State.exec, hloop, hwork, hsettled], by simp⟩
      | _ => exact ⟨.abort, by simp [State.exec, hloop, hwork, haborted], by simp⟩
  · split at hloop
    · rename_i hpaused
      refine ⟨.wake, ?_, by simp⟩
      simp only [State.exec, hpaused]
      split <;> rfl
    · rename_i answered hprobed
      refine ⟨.decide, ?_, by simp⟩
      simp only [State.exec, hprobed]
      split
      · rfl
      · split <;> rfl
    · rename_i timer client connection result hprobing
      exact ⟨.conclude, by simp [State.exec, hprobing], by simp⟩
    · cases hloop

namespace ProbeTrace

def quick : DatabaseProbe := ⟨1, 2, by decide, by decide, by decide⟩

/-- The first probe is refused a connection, for too many of them; the second waits for an answer. -/
def waiting : List Event :=
  [.tick, .fire 0, .wake, .response (.error ⟨true, true⟩), .conclude, .decide,
    .tick, .fire 2, .wake, .connected, .tick, .tick]

def silence : List Event := waiting ++ [.fire 3, .conclude, .decide]

def toldUnreachable (s : State) : Bool :=
  match s.result with
  | some (.error .unreachable) => s.clients = 2 && s.ended = [0, 1] && s.work.isNone
  | _ => false

/-- The work settles while a probe waits for an answer. -/
def settling : List Event :=
  [.tick, .fire 0, .wake, .connected, .workSettles (.ok ()), .abort, .settle, .conclude, .decide, .tick]

/-- The clock has gone on since the work settled. -/
def settledBefore (p : State × Past) : Bool :=
  p.2.any fun q => match q.2 with
    | .workSettles _ => q.1 < p.1.now
    | _ => false

def prompt (p : State × Past) : Event → Bool
  | .tick => p.1.rests
  | _ => true

theorem prompt_of_prompt (p : State × Past) (e : Event) (h : prompt p e = true) : Prompt p e := by
  cases e with
  | tick => exact h
  | _ => trivial

end ProbeTrace

theorem whileReachable_contract_silence : ∃ s past, (recorded ProbeTrace.quick true).Reachable (s, past) ∧
    ProbeTrace.toldUnreachable s = true ∧ Contract ProbeTrace.quick true s past := by
  obtain ⟨⟨s, past⟩, hreach, htold⟩ := (recorded ProbeTrace.quick true).exists_reachable_of_run
    ProbeTrace.silence (fun p => ProbeTrace.toldUnreachable p.1)
    (s := (.initial ProbeTrace.quick true, [])) ⟨rfl, rfl⟩ (by decide)
  exact ⟨s, past, hreach, htold, whileReachable_contract hreach⟩

theorem whileReachable_prompt_waiting :
    (∃ s past, (recorded ProbeTrace.quick true).ReachableWith Prompt (s, past) ∧ s.now = 4 ∧
      lastOver past = 1 ∧
      s.now ≤ lastOver past + setTimeout ProbeTrace.quick.interval + ProbeTrace.quick.timeout) ∧
    ∃ s past now result, (recorded ProbeTrace.quick true).ReachableWith Prompt (s, past) ∧
      (now, .workSettles result) ∈ past ∧ now < s.now ∧ s.result.isSome = true := by
  constructor
  · obtain ⟨⟨s, past⟩, hreach, hs⟩ := (recorded ProbeTrace.quick true).exists_reachableWith_of_runWith
      (c := ProbeTrace.prompt) ProbeTrace.waiting
      (fun p => p.1.now = 4 && lastOver p.2 = 1 && p.1.work.isNone && p.1.result.isNone)
      ProbeTrace.prompt_of_prompt (s := (.initial ProbeTrace.quick true, [])) ⟨rfl, rfl⟩ (by decide)
    simp only [Bool.and_eq_true, decide_eq_true_eq, Option.isNone_iff_eq_none] at hs
    obtain ⟨⟨⟨hnow, hover⟩, hwork⟩, hresult⟩ := hs
    exact ⟨s, past, hreach, hnow, hover, (whileReachable_prompt hreach).1 rfl hwork hresult⟩
  · obtain ⟨⟨s, past⟩, hreach, hs⟩ := (recorded ProbeTrace.quick true).exists_reachableWith_of_runWith
      (c := ProbeTrace.prompt) ProbeTrace.settling ProbeTrace.settledBefore
      ProbeTrace.prompt_of_prompt (s := (.initial ProbeTrace.quick true, [])) ⟨rfl, rfl⟩ (by decide)
    obtain ⟨⟨now, e⟩, hmem, he⟩ := List.any_eq_true.mp hs
    cases e with
    | workSettles result =>
      have hlt : now < s.now := of_decide_eq_true he
      exact ⟨s, past, now, result, hreach, hmem, hlt, (whileReachable_prompt hreach).2 now result hmem hlt⟩
    | _ => cases he

end BetterGraphileWorker.Shutdown
