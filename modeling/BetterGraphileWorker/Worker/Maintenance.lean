-- SUMMARY: The maintenance loop of a started worker: its passes, timer and stops, and the one pool connection that it holds.
import Mathlib.Data.List.Basic
import Mathlib.Data.Nat.Notation
import BetterGraphileWorker.Library.Runs

/-!
# The maintenance loop

A pass heartbeats and sweeps, one step after the other, each of a few queries on the held
connection; a step without one connects first. A pass arms the timer for the next when it has
ended. Queries succeed or fail, connections emit errors, and `stop()` is called, in any order.
What a logger or the rows say is left out, but for whether a sweep found a dead worker.
-/

namespace BetterGraphileWorker.Maintenance

/-! ## Passes -/

inductive Query where
  | heartbeat
  | begin
  | deleteDead
  | releaseJobs
  | commit
  | rollback
  | reportLost
  | wakeParents
  | deleteGroups
  | pruneOutcomes
  | pruneKeys
deriving DecidableEq

/-- `beat()` and the steps of `sweep`. -/
inductive Task where
  | beat
  | sweepDeadWorkers
  | sweepWaits
  | pruneJobOutcomes
  | pruneIdempotencyKeys
deriving DecidableEq

def Task.first : Task → Query
  | .beat => .heartbeat
  | .sweepDeadWorkers => .begin
  | .sweepWaits => .reportLost
  | .pruneJobOutcomes => .pruneOutcomes
  | .pruneIdempotencyKeys => .pruneKeys

/-- The query after one that succeeded; `dead` says whether a worker was found dead. -/
def Query.next (dead : Bool) : Query → Option Query
  | .begin => some .deleteDead
  | .deleteDead => some (if dead then .releaseJobs else .commit)
  | .releaseJobs => some .commit
  | .reportLost => some .wakeParents
  | .wakeParents => some .deleteGroups
  | .heartbeat | .commit | .rollback | .deleteGroups | .pruneOutcomes | .pruneKeys => none

/-- `sweepDeadWorkers` answers a failure with `ROLLBACK`. -/
def Query.inTransaction : Query → Bool
  | .begin | .deleteDead | .releaseJobs | .commit => true
  | _ => false

structure Options where
  recovery : Bool
  outcomeRetention : Bool

/-- `beatSafely().then(pass)`. -/
def Options.tasks (options : Options) : List Task :=
  (if options.recovery then [.beat, .sweepDeadWorkers] else []) ++ [.sweepWaits] ++
    (if options.outcomeRetention then [.pruneJobOutcomes] else []) ++ [.pruneIdempotencyKeys]

inductive Phase where
  | connecting (task : Task)
  | querying (client : ℕ) (query : Query)
  /-- `.then(schedule)` has not run yet. -/
  | scheduling
  | ended
deriving DecidableEq

/-- The phase of a pass, with the tasks after the current one. -/
structure Pass where
  phase : Phase
  rest : List Task
deriving DecidableEq

/-- A heartbeat or a sweep step is under way. -/
def Phase.inFlight : Phase → Bool
  | .connecting _ | .querying _ _ => true
  | .scheduling | .ended => false

/-! ## States -/

/-- A pool connection that was acquired, and for each `release()` whether it was given an error. -/
structure Client where
  failed : Bool
  released : List Bool
deriving DecidableEq

inductive StopCall where
  | waiting (pending : ℕ)
  | resolved
deriving DecidableEq

structure State where
  passes : ℕ → Option Pass
  /-- The pass that `pending` stands for. -/
  pending : ℕ
  armed : Bool
  stopped : Bool
  held : Option ℕ
  clients : ℕ → Option Client
  stops : ℕ → Option StopCall
  nextClient : ℕ
  nextStop : ℕ

inductive Event where
  /-- `pgPool.connect()` settles. -/
  | connected (pass : ℕ)
  | connectFailed (pass : ℕ)
  /-- The query of a pass settles. -/
  | ok (pass : ℕ) (dead : Bool)
  | fail (pass : ℕ)
  /-- A connection emits `error`. -/
  | error (client : ℕ)
  | schedule (pass : ℕ)
  | fire
  | stop
  /-- `await pending` continues in a `stop()`. -/
  | resume (stop : ℕ)
deriving DecidableEq

namespace State

variable (s : State)

def setPass (n : ℕ) (phase : Phase) (rest : List Task) : State :=
  { s with passes := Function.update s.passes n (some ⟨phase, rest⟩) }

def setClient (c : ℕ) (client : Client) : State :=
  { s with clients := Function.update s.clients c (some client) }

def failClient (c : ℕ) : State :=
  match s.clients c with
  | some client => s.setClient c { client with failed := true }
  | none => s

def releaseClient (c : ℕ) (error : Bool) : State :=
  match s.clients c with
  | some client => s.setClient c { client with released := error :: client.released }
  | none => s

def discard (c : ℕ) : State :=
  if s.held = some c then { s with held := none }.releaseClient c true else s

section
variable {s} {n n' c c' : ℕ} {phase : Phase} {rest : List Task} {client : Client}

theorem passes_self : (s.setPass n phase rest).passes n = some ⟨phase, rest⟩ :=
  Function.update_self ..

theorem passes_ne (h : n' ≠ n) : (s.setPass n phase rest).passes n' = s.passes n' :=
  Function.update_of_ne h ..

theorem clients_self : (s.setClient c client).clients c = some client :=
  Function.update_self ..

theorem clients_ne (h : c' ≠ c) : (s.setClient c client).clients c' = s.clients c' :=
  Function.update_of_ne h ..

end

/-- The next step of a pass, on the held connection if there is one. -/
def proceed (n : ℕ) : List Task → State
  | [] => s.setPass n .scheduling []
  | task :: rest =>
    match s.held with
    | some c => s.setPass n (.querying c task.first) rest
    | none => s.setPass n (.connecting task) rest

/-- `held?.release(); held = undefined`. -/
def letGo : State :=
  match s.held with
  | some c => { s with held := none }.releaseClient c false
  | none => s

/-- The promise of a pass has resolved. That of the first one does not include `schedule`. -/
def resolved (n : ℕ) : Bool :=
  match (s.passes n).map Pass.phase with
  | some .ended => true
  | some .scheduling => n = 0
  | _ => false

def failed (c : ℕ) : Bool := (s.clients c).any Client.failed

def exec (options : Options) : Event → Option State
  | .connected n =>
    match s.passes n with
    | some ⟨.connecting task, rest⟩ =>
      let s' := (s.setClient s.nextClient ⟨false, []⟩).setPass n
        (.querying s.nextClient task.first) rest
      some { s' with held := some s.nextClient, nextClient := s.nextClient + 1 }
    | _ => none
  | .connectFailed n =>
    match s.passes n with
    | some ⟨.connecting _, rest⟩ => some (s.proceed n rest)
    | _ => none
  | .ok n dead =>
    match s.passes n with
    -- The step throws whatever becomes of its `ROLLBACK`.
    | some ⟨.querying c .rollback, rest⟩ => some ((s.discard c).proceed n rest)
    | some ⟨.querying c query, rest⟩ =>
      -- A connection that emitted an error rejects every query.
      if s.failed c then none
      else match query.next dead with
        | some query' => some (s.setPass n (.querying c query') rest)
        | none => some (s.proceed n rest)
    | _ => none
  | .fail n =>
    match s.passes n with
    | some ⟨.querying c query, rest⟩ =>
      if query.inTransaction then some ((s.setPass n (.querying c .rollback) rest).failClient c)
      else some (((s.failClient c).discard c).proceed n rest)
    | _ => none
  | .error c =>
    match s.clients c with
    | some _ => some (if s.held = some c then (s.failClient c).discard c else s)
    | none => none
  | .schedule n =>
    match s.passes n with
    | some ⟨.scheduling, rest⟩ =>
      let s := s.setPass n .ended rest
      some (if s.stopped then s else { s with armed := true })
    | _ => none
  | .fire =>
    if s.armed then
      some ({ s with armed := false, pending := s.pending + 1 }.proceed (s.pending + 1) options.tasks)
    else none
  | .stop =>
    some { s with
      stopped := true
      armed := false
      stops := Function.update s.stops s.nextStop (some (.waiting s.pending))
      nextStop := s.nextStop + 1 }
  | .resume k =>
    match s.stops k with
    | some (.waiting n) =>
      if s.resolved n then
        let s := s.letGo
        some { s with stops := Function.update s.stops k (some .resolved) }
      else none
    | _ => none

end State

/-- The loop starts with its first pass. -/
def start (options : Options) : State :=
  State.proceed
    { passes := fun _ => none
      pending := 0
      armed := false
      stopped := false
      held := none
      clients := fun _ => none
      stops := fun _ => none
      nextClient := 0
      nextStop := 0 } 0 options.tasks

def loopSystem (options : Options) : TransitionSystem State Event where
  Init s := s = start options
  step s e := s.exec options e

/-! ## Uses of a connection that has failed -/

/-- The pass that an event lets go on. -/
def Event.pass? (s : State) : Event → Option ℕ
  | .connected n | .connectFailed n | .ok n _ | .fail n => some n
  | .fire => some (s.pending + 1)
  | .error _ | .schedule _ | .stop | .resume _ => none

/-- The connection that an event starts a query on, with the query. -/
def startedQuery (s : State) (e : Event) (s' : State) : Option (ℕ × Query) :=
  (e.pass? s).bind fun n =>
    match s'.passes n with
    | some ⟨.querying c query, _⟩ => some (c, query)
    | _ => none

/-- The queries that were started on connections that had failed. -/
def note (s : State) (e : Event) (s' : State) (late : List (ℕ × Query)) : List (ℕ × Query) :=
  match startedQuery s e s' with
  | some (c, query) => if s'.failed c then (c, query) :: late else late
  | none => late

/-- The loop with the queries that were started too late. -/
def system (options : Options) : TransitionSystem (State × List (ℕ × Query)) Event :=
  (loopSystem options).observe [] note

/-! ## Ownership -/

/-- What the loop says of its connection. -/
structure OwnsConnection (p : State × List (ℕ × Query)) : Prop where
  onePass : ∀ n n' pass pass', p.1.passes n = some pass → pass.phase.inFlight = true →
    p.1.passes n' = some pass' → pass'.phase.inFlight = true → n = n'
  oneClient : ∀ c c' client client', p.1.clients c = some client → client.released = [] →
    p.1.clients c' = some client' → client'.released = [] → c = c'
  released : ∀ c client, p.1.clients c = some client →
    client.released = [] ∧ p.1.held = some c ∨ client.released = [client.failed]
  /-- Only the transaction that failed on a connection uses it again. -/
  late : (∀ use ∈ p.2, use.2 = .rollback) ∧ (p.2.map Prod.fst).Nodup
  stopped : ∀ k, p.1.stops k = some .resolved → p.1.armed = false ∧ p.1.held = none ∧
    (∀ n pass, p.1.passes n = some pass → pass.phase.inFlight = false) ∧
    ∀ c client, p.1.clients c = some client → client.released = [client.failed]

/-! ## The invariant -/

/-- One pass is not over, its client is held or has failed, and what is held is not released. -/
structure Base (s : State) : Prop where
  passes_le : ∀ n pass, s.passes n = some pass → n ≤ s.pending
  last : ∀ n pass, s.passes n = some pass → pass.phase ≠ .ended → n = s.pending
  armed : s.armed = true →
    s.stopped = false ∧ ∀ n pass, s.passes n = some pass → pass.phase = .ended
  clients_lt : ∀ c client, s.clients c = some client → c < s.nextClient
  client : ∀ c client, s.clients c = some client →
    client.released = [] ∧ s.held = some c ∨ client.released = [client.failed]
  held : ∀ c, s.held = some c → ∃ client, s.clients c = some client ∧ client.released = []
  connecting : ∀ n task rest, s.passes n = some ⟨.connecting task, rest⟩ → s.held = none
  querying : ∀ n c query rest, s.passes n = some ⟨.querying c query, rest⟩ →
    s.held = some c ∨ s.failed c = true
  stopping : ∀ k n, s.stops k = some (.waiting n) → s.stopped = true ∧ n = s.pending
  stopped : ∀ k, s.stops k = some .resolved → s.stopped = true ∧ s.held = none ∧
    ∀ n pass, s.passes n = some pass → pass.phase.inFlight = false

/-- A held client that has failed is in its `ROLLBACK`. -/
structure Inv (s : State) : Prop extends Base s where
  rolling : ∀ c, s.held = some c → s.failed c = true →
    ∃ rest, s.passes s.pending = some ⟨.querying c .rollback, rest⟩
  rollback : ∀ c rest, s.passes s.pending = some ⟨.querying c .rollback, rest⟩ → s.failed c = true

section
variable {s s' : State} {n c : ℕ} {phase : Phase} {rest : List Task}

/-! ## Parts of a step -/

/-- The pass that is not over goes on. -/
theorem Base.setPass (h : Base s) (hn : n = s.pending) (harmed : phase ≠ .ended → s.armed = false)
    (hconnecting : ∀ task, phase = .connecting task → s.held = none)
    (hquerying : ∀ c query, phase = .querying c query → s.held = some c ∨ s.failed c = true)
    (hstopped : phase.inFlight = true → ∀ k, s.stops k ≠ some .resolved) :
    Base (s.setPass n phase rest) := by
  have hcases : ∀ n' pass, (s.setPass n phase rest).passes n' = some pass →
      n' = n ∧ pass = ⟨phase, rest⟩ ∨ n' ≠ n ∧ s.passes n' = some pass := by
    intro n' pass hpass
    by_cases heq : n' = n
    · subst heq
      exact .inl ⟨rfl, (Option.some.inj (State.passes_self.symm.trans hpass)).symm⟩
    · exact .inr ⟨heq, (State.passes_ne heq).symm.trans hpass⟩
  refine { h with
    passes_le := ?_, last := ?_, armed := ?_, connecting := ?_, querying := ?_, stopped := ?_ }
  · intro n' pass hpass
    rcases hcases n' pass hpass with ⟨heq, -⟩ | ⟨-, hold⟩
    · exact Nat.le_of_eq (heq.trans hn)
    · exact h.passes_le n' pass hold
  · intro n' pass hpass hphase
    rcases hcases n' pass hpass with ⟨heq, -⟩ | ⟨-, hold⟩
    · exact heq.trans hn
    · exact h.last n' pass hold hphase
  · intro hset
    refine ⟨(h.armed hset).1, fun n' pass hpass => ?_⟩
    rcases hcases n' pass hpass with ⟨-, heq⟩ | ⟨-, hold⟩
    · subst heq
      by_contra hphase
      exact absurd ((harmed hphase).symm.trans hset) (by simp)
    · exact (h.armed hset).2 n' pass hold
  · intro n' task rest' hpass
    rcases hcases n' _ hpass with ⟨-, heq⟩ | ⟨-, hold⟩
    · cases heq
      exact hconnecting task rfl
    · exact h.connecting n' task rest' hold
  · intro n' c query rest' hpass
    rcases hcases n' _ hpass with ⟨-, heq⟩ | ⟨-, hold⟩
    · cases heq
      exact hquerying c query rfl
    · exact h.querying n' c query rest' hold
  · intro k hk
    obtain ⟨hstop, hheld, hover⟩ := h.stopped k hk
    refine ⟨hstop, hheld, fun n' pass hpass => ?_⟩
    rcases hcases n' pass hpass with ⟨-, heq⟩ | ⟨-, hold⟩
    · subst heq
      by_contra hflight
      exact hstopped (by simpa using hflight) k hk
    · exact hover n' pass hold

private theorem failed_of_failClient {c' : ℕ} (h : (s.failClient c).failed c' = true) :
    c' = c ∨ s.failed c' = true := by
  by_cases heq : c' = c
  · exact .inl heq
  · right
    unfold State.failClient at h
    split at h
    · simpa [State.failed, State.clients_ne heq] using h
    · exact h

private theorem failed_failClient {c' : ℕ} (h : s.failed c' = true) : (s.failClient c).failed c' = true := by
  unfold State.failClient
  split
  · by_cases heq : c' = c
    · simp [State.failed, heq, State.clients_self]
    · simpa [State.failed, State.clients_ne heq] using h
  · exact h

/-- A client fails that is held, or has failed before. -/
theorem Base.failClient (h : Base s) (hc : s.held = some c ∨ s.failed c = true) :
    Base (s.failClient c) ∧ (s.failClient c).failed c = true := by
  have hsome : (s.clients c).isSome = true := by
    rcases hc with hheld | hfailed
    · obtain ⟨client, hclient, -⟩ := h.held c hheld
      exact Option.isSome_of_mem hclient
    · cases hclient : s.clients c with
      | none => simp [State.failed, hclient] at hfailed
      | some client => rfl
  have hfailed : ∀ c', s.failed c' = true → (s.failClient c).failed c' = true :=
    fun c' => failed_failClient
  obtain ⟨client, hclient⟩ := Option.isSome_iff_exists.mp hsome
  have hset : s.failClient c = s.setClient c { client with failed := true } := by
    simp [State.failClient, hclient]
  rw [hset] at hfailed ⊢
  refine ⟨?_, by simp [State.failed, State.clients_self]⟩
  have hreleased : client.released = [] ∧ s.held = some c ∨ client.released = [true] := by
    rcases h.client c client hclient with hnone | hreleased
    · exact .inl hnone
    · rcases hc with hheld | hbefore
      · obtain ⟨client', hclient', hempty⟩ := h.held c hheld
        rw [hclient, Option.some.injEq] at hclient'
        exact .inl ⟨hclient' ▸ hempty, hheld⟩
      · have hflag : client.failed = true := by simpa [State.failed, hclient] using hbefore
        exact .inr (hflag ▸ hreleased)
  refine { h with clients_lt := ?_, client := ?_, held := ?_, querying := ?_ }
  · intro c' client' hclient'
    by_cases heq : c' = c
    · exact heq ▸ h.clients_lt c client hclient
    · exact h.clients_lt c' client' ((State.clients_ne heq).symm.trans hclient')
  · intro c' client' hclient'
    by_cases heq : c' = c
    · subst heq
      obtain rfl := Option.some.inj (State.clients_self.symm.trans hclient')
      exact hreleased
    · exact h.client c' client' ((State.clients_ne heq).symm.trans hclient')
  · intro c' hheld
    obtain ⟨client', hclient', hempty⟩ := h.held c' hheld
    by_cases heq : c' = c
    · subst heq
      rw [hclient, Option.some.injEq] at hclient'
      exact ⟨_, State.clients_self, hclient' ▸ hempty⟩
    · exact ⟨client', (State.clients_ne heq).trans hclient', hempty⟩
  · intro n c' query rest hpass
    exact (h.querying n c' query rest hpass).imp id (hfailed c')

/-- The held client is released, with an error if it has failed. -/
theorem Base.release {error : Bool} (h : Base s) (hheld : s.held = some c) (herror : s.failed c = error)
    (hused : ∀ n query rest, s.passes n = some ⟨.querying c query, rest⟩ → error = true) :
    Base ({ s with held := none }.releaseClient c error) ∧
      ({ s with held := none }.releaseClient c error).failed = s.failed := by
  obtain ⟨client, hclient, hempty⟩ := h.held c hheld
  have hfailed : client.failed = error := by simpa [State.failed, hclient] using herror
  have hset : { s with held := none }.releaseClient c error =
      { s with held := none }.setClient c { client with released := [error] } := by
    simp [State.releaseClient, hclient, hempty]
  have hsame : ({ s with held := none }.setClient c { client with released := [error] }).failed =
      s.failed := by
    funext c'
    by_cases heq : c' = c
    · subst heq
      simp [State.failed, State.clients_self, hclient]
    · simp only [State.failed, State.clients_ne heq]
  rw [hset]
  refine ⟨{ h with
    clients_lt := ?_, client := ?_, held := ?_, connecting := ?_, querying := ?_, stopped := ?_ }, hsame⟩
  · intro c' client' hclient'
    by_cases heq : c' = c
    · exact heq ▸ h.clients_lt c client hclient
    · exact h.clients_lt c' client' ((State.clients_ne heq).symm.trans hclient')
  · intro c' client' hclient'
    by_cases heq : c' = c
    · subst heq
      obtain rfl := Option.some.inj (State.clients_self.symm.trans hclient')
      exact .inr (congrArg (fun failed => [failed]) hfailed.symm)
    · rcases h.client c' client' ((State.clients_ne heq).symm.trans hclient') with ⟨-, hother⟩ | hdone
      · exact absurd (Option.some.inj (hother.symm.trans hheld)) heq
      · exact .inr hdone
  · intro c' hnone
    cases hnone
  · intro _ _ _ _
    rfl
  · intro n c' query rest hpass
    rcases h.querying n c' query rest hpass with hother | hdone
    · obtain rfl : c' = c := Option.some.inj (hother.symm.trans hheld)
      exact .inr ((congrFun hsame c').trans (herror.trans (hused n query rest hpass)))
    · exact .inr ((congrFun hsame c').trans hdone)
  · intro k hk
    obtain ⟨hstop, -, hover⟩ := h.stopped k hk
    exact ⟨hstop, rfl, hover⟩

/-- What `discard` does of a client that has failed. -/
theorem Base.discard (h : Base s) (hc : s.failed c = true) :
    Base (s.discard c) ∧ (s.discard c).failed = s.failed ∧
      ∀ c', (s.discard c).held = some c' → s.held = some c' ∧ c' ≠ c := by
  unfold State.discard
  split
  · rename_i hheld
    obtain ⟨hbase, hfailed⟩ := h.release hheld hc fun _ _ _ _ => rfl
    refine ⟨hbase, hfailed, fun c' hc' => ?_⟩
    unfold State.releaseClient at hc'
    split at hc' <;> cases hc'
  · rename_i hheld
    refine ⟨h, rfl, fun c' hc' => ⟨hc', ?_⟩⟩
    rintro rfl
    exact hheld hc'

@[simp] theorem discard_passes : (s.discard c).passes = s.passes := by
  unfold State.discard State.releaseClient
  split <;> [split; rfl] <;> rfl

@[simp] theorem discard_pending : (s.discard c).pending = s.pending := by
  unfold State.discard State.releaseClient
  split <;> [split; rfl] <;> rfl

@[simp] theorem discard_armed : (s.discard c).armed = s.armed := by
  unfold State.discard State.releaseClient
  split <;> [split; rfl] <;> rfl

@[simp] theorem discard_stops : (s.discard c).stops = s.stops := by
  unfold State.discard State.releaseClient
  split <;> [split; rfl] <;> rfl

@[simp] theorem failClient_passes : (s.failClient c).passes = s.passes := by
  unfold State.failClient
  split <;> rfl

@[simp] theorem failClient_pending : (s.failClient c).pending = s.pending := by
  unfold State.failClient
  split <;> rfl

@[simp] theorem failClient_armed : (s.failClient c).armed = s.armed := by
  unfold State.failClient
  split <;> rfl

@[simp] theorem failClient_stops : (s.failClient c).stops = s.stops := by
  unfold State.failClient
  split <;> rfl

@[simp] theorem failClient_held : (s.failClient c).held = s.held := by
  unfold State.failClient
  split <;> rfl

/-- The next step of a pass starts no `ROLLBACK`, and queries the held client or none. -/
theorem exists_proceed (s : State) (n : ℕ) (tasks : List Task) : ∃ phase rest,
    s.proceed n tasks = s.setPass n phase rest ∧ phase ≠ .ended ∧
      (∀ task, phase = .connecting task → s.held = none) ∧
      ∀ c query, phase = .querying c query → s.held = some c ∧ query ≠ .rollback := by
  cases tasks with
  | nil => exact ⟨.scheduling, [], rfl, by simp, by simp, by simp⟩
  | cons task tasks =>
    cases hheld : s.held with
    | none => exact ⟨.connecting task, tasks, by simp [State.proceed, hheld], by simp, by simp, by simp⟩
    | some c =>
      refine ⟨.querying c task.first, tasks, by simp [State.proceed, hheld], by simp, by simp, ?_⟩
      rintro c' query ⟨⟩
      refine ⟨rfl, ?_⟩
      cases task <;> simp [Task.first]

/-- The pass goes on to its next step, where no failed client is held. -/
theorem Base.proceed {tasks : List Task} (h : Base s) (hn : n = s.pending) (harmed : s.armed = false)
    (hsound : ∀ c, s.held = some c → s.failed c = false)
    (hstopped : ∀ k, s.stops k ≠ some .resolved) : Inv (s.proceed n tasks) := by
  obtain ⟨phase, rest, heq, hphase, hconnecting, hquerying⟩ := exists_proceed s n tasks
  rw [heq]
  refine { h.setPass hn (fun _ => harmed) hconnecting ?_ (fun _ => hstopped) with
    rolling := ?_, rollback := ?_ }
  · intro c query hphase
    exact .inl (hquerying c query hphase).1
  · intro c hheld hfailed
    exact absurd ((hsound c hheld).symm.trans hfailed) (by simp)
  · intro c rest' hpass
    have hself := State.passes_self.symm.trans (hn ▸ hpass)
    obtain rfl : phase = .querying c .rollback := congrArg Pass.phase (Option.some.inj hself)
    exact absurd rfl (hquerying c .rollback rfl).2

/-- While a step is under way, its pass is the last one and no `stop()` has resolved. -/
theorem Base.under (h : Base s) (hpass : s.passes n = some ⟨phase, rest⟩) (hflight : phase.inFlight = true) :
    n = s.pending ∧ s.armed = false ∧ ∀ k, s.stops k ≠ some .resolved := by
  have hphase : phase ≠ .ended := by
    rintro rfl
    cases hflight
  refine ⟨h.last n _ hpass hphase, ?_, fun k hk => ?_⟩
  · by_contra harmed
    exact hphase ((h.armed (by simpa using harmed)).2 n _ hpass)
  · exact absurd ((h.stopped k hk).2.2 n _ hpass) (by simp [hflight])

/-- Where a client is held that has failed, the last pass is in its `ROLLBACK`. -/
theorem Inv.held_eq {query : Query} {c' : ℕ} (h : Inv s) (hpass : s.passes n = some ⟨.querying c query, rest⟩)
    (hheld : s.held = some c') (hfailed : s.failed c' = true) : c' = c := by
  obtain ⟨rest', hroll⟩ := h.rolling c' hheld hfailed
  rw [← (h.under hpass rfl).1, hpass] at hroll
  cases hroll
  rfl

/-- After its `ROLLBACK` no failed client is held. -/
theorem Inv.discard_sound (h : Inv s) (hpass : s.passes n = some ⟨.querying c .rollback, rest⟩) :
    ∀ c', (s.discard c).held = some c' → (s.discard c).failed c' = false := by
  obtain ⟨hn, -, -⟩ := h.under hpass rfl
  obtain ⟨-, hfailed, hheld⟩ := h.discard (h.rollback c rest (hn ▸ hpass))
  intro c' hc'
  rw [hfailed]
  by_contra hc
  exact (hheld c' hc').2 (h.held_eq hpass (hheld c' hc').1 (by simpa using hc))

/-- Nor after a query that has failed. -/
theorem Inv.failClient_sound {query : Query} (h : Inv s)
    (hpass : s.passes n = some ⟨.querying c query, rest⟩) :
    ∀ c', ((s.failClient c).discard c).held = some c' →
      ((s.failClient c).discard c).failed c' = false := by
  obtain ⟨hbase, hfailed⟩ := h.failClient (h.querying n c query rest hpass)
  obtain ⟨-, hfailed', hheld⟩ := hbase.discard hfailed
  intro c' hc'
  obtain ⟨hc, hne⟩ := hheld c' hc'
  rw [failClient_held] at hc
  by_contra hsound
  rw [hfailed'] at hsound
  rcases failed_of_failClient (by simpa using hsound) with heq | hbefore
  · exact hne heq
  · exact hne (h.held_eq hpass hc hbefore)

/-- A new client is held. -/
theorem Base.acquire (h : Base s) (hheld : s.held = none)
    (hnone : ∀ n task rest, s.passes n ≠ some ⟨.connecting task, rest⟩)
    (hstopped : ∀ k, s.stops k ≠ some .resolved) :
    Base { s.setClient s.nextClient ⟨false, []⟩ with
      held := some s.nextClient, nextClient := s.nextClient + 1 } := by
  have hne : ∀ c client, s.clients c = some client → c ≠ s.nextClient :=
    fun c client hc => Nat.ne_of_lt (h.clients_lt c client hc)
  refine { h with
    clients_lt := ?_, client := ?_, held := ?_, connecting := ?_, querying := ?_, stopped := ?_ }
  · intro c client hc
    by_cases heq : c = s.nextClient
    · exact heq ▸ Nat.lt_succ_self _
    · exact Nat.lt_succ_of_lt (h.clients_lt c client ((State.clients_ne heq).symm.trans hc))
  · intro c client hc
    by_cases heq : c = s.nextClient
    · subst heq
      obtain rfl := Option.some.inj (State.clients_self.symm.trans hc)
      exact .inl ⟨rfl, rfl⟩
    · rcases h.client c client ((State.clients_ne heq).symm.trans hc) with ⟨-, hc'⟩ | hdone
      · exact absurd (hheld.symm.trans hc') (by simp)
      · exact .inr hdone
  · rintro c ⟨⟩
    exact ⟨_, State.clients_self, rfl⟩
  · intro n task rest hpass
    exact absurd hpass (hnone n task rest)
  · intro n c query rest hpass
    rcases h.querying n c query rest hpass with hc | hfailed
    · exact absurd (hheld.symm.trans hc) (by simp)
    · right
      cases hc : s.clients c with
      | none => simp [State.failed, hc] at hfailed
      | some client =>
        have hsame : (s.setClient s.nextClient ⟨false, []⟩).clients c = s.clients c :=
          State.clients_ne (hne c client hc)
        simpa [State.failed, hsame] using hfailed
  · intro k hk
    exact absurd hk (hstopped k)

/-! ## Steps -/

variable {options : Options}

theorem Inv.connected (h : Inv s) (hstep : s.exec options (.connected n) = some s') : Inv s' := by
  simp only [State.exec] at hstep
  split at hstep
  · rename_i task rest hpass
    obtain ⟨hn, harmed, hstopped⟩ := h.under hpass rfl
    have hheld := h.connecting n task rest hpass
    -- The pass leaves its connecting phase, the client is held, and then queried.
    have hleft : Base (s.setPass n .scheduling rest) :=
      h.setPass hn (fun _ => harmed) (by simp) (by simp) (fun _ => hstopped)
    have hnone : ∀ n' task rest', (s.setPass n .scheduling rest).passes n' ≠
        some ⟨.connecting task, rest'⟩ := by
      intro n' task' rest' hpass'
      by_cases heq : n' = n
      · subst heq
        cases State.passes_self.symm.trans hpass'
      · have hold := (State.passes_ne heq).symm.trans hpass'
        exact heq ((h.last n' _ hold (by simp)).trans hn.symm)
    have hacquired := hleft.acquire hheld hnone hstopped
    cases hstep
    refine Inv.mk ?_ ?_ ?_
    · have hbase : Base (State.setPass _ n (.querying s.nextClient task.first) rest) :=
        hacquired.setPass hn (fun _ => harmed) (by simp) (by rintro _ _ ⟨⟩; exact .inl rfl)
          (fun _ => hstopped)
      simpa [State.setPass, State.setClient, Function.update_idem] using hbase
    · rintro c ⟨⟩ hfailed
      simp [State.failed, State.setPass, State.setClient] at hfailed
    · intro c rest' hpass'
      have hself := State.passes_self.symm.trans (hn ▸ hpass')
      cases task <;> cases hself
  · cases hstep

theorem Inv.connectFailed (h : Inv s) (hstep : s.exec options (.connectFailed n) = some s') : Inv s' := by
  simp only [State.exec] at hstep
  split at hstep
  · rename_i task rest hpass
    obtain ⟨hn, harmed, hstopped⟩ := h.under hpass rfl
    have hheld := h.connecting n task rest hpass
    cases hstep
    apply h.proceed hn harmed _ hstopped
    intro c hc
    exact absurd (hheld.symm.trans hc) (by simp)
  · cases hstep

theorem Inv.ok {dead : Bool} (h : Inv s) (hstep : s.exec options (.ok n dead) = some s') : Inv s' := by
  simp only [State.exec] at hstep
  split at hstep
  · rename_i c rest hpass
    obtain ⟨hn, harmed, hstopped⟩ := h.under hpass rfl
    cases hstep
    exact (h.discard (h.rollback c rest (hn ▸ hpass))).1.proceed (by simpa using hn)
      (by simpa using harmed) (h.discard_sound hpass) (by simpa using hstopped)
  · rename_i c query rest _ hpass
    obtain ⟨hn, harmed, hstopped⟩ := h.under hpass rfl
    split at hstep
    · cases hstep
    · rename_i hsound
      have hheld : s.held = some c := (h.querying n c query rest hpass).resolve_right hsound
      split at hstep
      · rename_i query' hnext
        cases hstep
        have hroll : query' ≠ .rollback := by
          rintro rfl
          revert hnext
          cases query <;> simp [Query.next]
          cases dead <;> simp
        refine { h.setPass hn (fun _ => harmed) (by simp) ?_ (fun _ => hstopped) with
          rolling := ?_, rollback := ?_ }
        · rintro c' query'' ⟨⟩
          exact .inl hheld
        · intro c' hc' hfailed
          obtain rfl : c' = c := Option.some.inj (hc'.symm.trans hheld)
          exact absurd hfailed hsound
        · intro c' rest' hpass'
          have hself := State.passes_self.symm.trans (hn ▸ hpass')
          cases hself
          exact absurd rfl hroll
      · cases hstep
        apply h.proceed hn harmed _ hstopped
        intro c' hc'
        obtain rfl : c' = c := Option.some.inj (hc'.symm.trans hheld)
        simpa using hsound
  · cases hstep

theorem Inv.fail (h : Inv s) (hstep : s.exec options (.fail n) = some s') : Inv s' := by
  simp only [State.exec] at hstep
  split at hstep
  · rename_i c query rest hpass
    obtain ⟨hn, harmed, hstopped⟩ := h.under hpass rfl
    have hused := h.querying n c query rest hpass
    split at hstep
    · cases hstep
      have hmoved : Base (s.setPass n (.querying c .rollback) rest) :=
        h.setPass hn (fun _ => harmed) (by simp) (by rintro _ _ ⟨⟩; exact hused) (fun _ => hstopped)
      obtain ⟨hbase, hfailed⟩ := hmoved.failClient hused
      have hself : ((s.setPass n (.querying c .rollback) rest).failClient c).passes s.pending =
          some ⟨.querying c .rollback, rest⟩ := by
        rw [failClient_passes, ← hn, State.passes_self]
      refine Inv.mk hbase ?_ ?_
      · intro c' hheld hc'
        rw [failClient_held] at hheld
        have heq : c' = c := by
          rcases failed_of_failClient hc' with heq | hbefore
          · exact heq
          · exact h.held_eq hpass hheld hbefore
        subst heq
        exact ⟨rest, by rw [failClient_pending]; exact hself⟩
      · intro c' rest' hpass'
        rw [failClient_pending] at hpass'
        cases hself.symm.trans hpass'
        exact hfailed
    · cases hstep
      obtain ⟨hbase, hfailed⟩ := h.failClient hused
      exact (hbase.discard hfailed).1.proceed (by simpa using hn) (by simpa using harmed)
        (h.failClient_sound hpass) (by simpa using hstopped)
  · cases hstep

theorem Inv.error (h : Inv s) (hstep : s.exec options (.error c) = some s') : Inv s' := by
  simp only [State.exec] at hstep
  split at hstep
  · cases hstep
    split
    · rename_i hheld
      obtain ⟨hbase, hfailed⟩ := h.failClient (.inl hheld)
      obtain ⟨hbase', hfailed', hother⟩ := hbase.discard hfailed
      refine Inv.mk hbase' ?_ ?_
      · intro c' hc'
        obtain ⟨hc, hne⟩ := hother c' hc'
        rw [failClient_held] at hc
        exact absurd (Option.some.inj (hc.symm.trans hheld)) hne
      · intro c' rest hpass
        rw [discard_passes, failClient_passes, discard_pending, failClient_pending] at hpass
        rw [hfailed']
        exact failed_failClient (h.rollback c' rest hpass)
    · exact h
  · cases hstep

theorem Inv.schedule (h : Inv s) (hstep : s.exec options (.schedule n) = some s') : Inv s' := by
  simp only [State.exec] at hstep
  split at hstep
  · rename_i rest hpass
    have hn : n = s.pending := h.last n _ hpass (by simp)
    have hended : Base (s.setPass n .ended rest) :=
      h.setPass hn (by simp) (by simp) (by simp) (by simp [Phase.inFlight])
    have hself : (s.setPass n .ended rest).passes s.pending = some ⟨.ended, rest⟩ := by
      rw [← hn, State.passes_self]
    have hinv : Inv (s.setPass n .ended rest) := by
      refine Inv.mk hended ?_ ?_
      · intro c hheld hfailed
        obtain ⟨rest', hroll⟩ := h.rolling c hheld hfailed
        rw [← hn, hpass] at hroll
        cases hroll
      · intro c rest' hpass'
        cases hself.symm.trans hpass'
    cases hstep
    split
    · exact hinv
    · rename_i hstop
      refine { hinv with armed := fun _ => ⟨by simpa using hstop, fun n' pass hpass' => ?_⟩ }
      by_contra hphase
      have hlast := hended.last n' pass hpass' hphase
      rw [show n' = s.pending from hlast] at hpass'
      cases hself.symm.trans hpass'
      exact hphase rfl
  · cases hstep

theorem Inv.fire (h : Inv s) (hstep : s.exec options .fire = some s') : Inv s' := by
  simp only [State.exec] at hstep
  split at hstep
  · rename_i harmed
    obtain ⟨hgoing, hover⟩ := h.armed harmed
    cases hstep
    have hcounted : Base { s with armed := false, pending := s.pending + 1 } := by
      refine { h with passes_le := ?_, last := ?_, armed := ?_, stopping := ?_ }
      · intro n pass hpass
        exact Nat.le_succ_of_le (h.passes_le n pass hpass)
      · intro n pass hpass hphase
        exact absurd (hover n pass hpass) hphase
      · intro hset
        cases hset
      · intro k n hk
        exact absurd (hgoing.symm.trans (h.stopping k n hk).1) (by simp)
    apply hcounted.proceed rfl rfl
    · intro c hheld
      change s.failed c = false
      by_contra hfailed
      obtain ⟨rest, hroll⟩ := h.rolling c hheld (by simpa using hfailed)
      cases hover _ _ hroll
    · intro k hk
      exact absurd (hgoing.symm.trans (h.stopped k hk).1) (by simp)
  · cases hstep

theorem Inv.stop (h : Inv s) (hstep : s.exec options .stop = some s') : Inv s' := by
  cases hstep
  refine { h with armed := ?_, stopping := ?_, stopped := ?_ }
  · intro hset
    cases hset
  · intro k n hk
    by_cases heq : k = s.nextStop
    · simp only [heq, Function.update_self, Option.some.injEq, StopCall.waiting.injEq] at hk
      exact ⟨rfl, hk.symm⟩
    · simp only [Function.update_of_ne heq] at hk
      exact ⟨rfl, (h.stopping k n hk).2⟩
  · intro k hk
    by_cases heq : k = s.nextStop
    · simp [heq] at hk
    · simp only [Function.update_of_ne heq] at hk
      exact ⟨rfl, (h.stopped k hk).2⟩

@[simp] theorem letGo_passes : s.letGo.passes = s.passes := by
  unfold State.letGo State.releaseClient
  split <;> [split; rfl] <;> rfl

@[simp] theorem letGo_pending : s.letGo.pending = s.pending := by
  unfold State.letGo State.releaseClient
  split <;> [split; rfl] <;> rfl

@[simp] theorem letGo_stopped : s.letGo.stopped = s.stopped := by
  unfold State.letGo State.releaseClient
  split <;> [split; rfl] <;> rfl

@[simp] theorem letGo_held : s.letGo.held = none := by
  unfold State.letGo State.releaseClient
  split
  · split <;> rfl
  · assumption

/-- Between two passes the connection is released as a sound one. -/
theorem Inv.letGo (h : Inv s) (hover : ∀ n pass, s.passes n = some pass → pass.phase.inFlight = false) :
    Inv s.letGo := by
  have hsame : Base s.letGo ∧ s.letGo.failed = s.failed := by
    unfold State.letGo
    split
    · rename_i c hheld
      apply h.release hheld
      · by_contra hfailed
        obtain ⟨rest, hroll⟩ := h.rolling c hheld (by simpa using hfailed)
        cases hover _ _ hroll
      · intro n query rest hpass
        cases hover n _ hpass
    · exact ⟨h.toBase, rfl⟩
  refine Inv.mk hsame.1 ?_ ?_
  · intro c hheld
    rw [letGo_held] at hheld
    cases hheld
  · intro c rest hpass
    rw [letGo_passes, letGo_pending] at hpass
    rw [hsame.2]
    exact h.rollback c rest hpass

/-- A `stop()` resolves once nothing is held or under way. -/
theorem Inv.resolve {k : ℕ} (h : Inv s) (hstop : s.stopped = true) (hheld : s.held = none)
    (hover : ∀ n pass, s.passes n = some pass → pass.phase.inFlight = false) :
    Inv { s with stops := Function.update s.stops k (some .resolved) } := by
  refine { h with stopping := ?_, stopped := fun _ _ => ⟨hstop, hheld, hover⟩ }
  intro k' n hk'
  by_cases heq : k' = k
  · simp [heq] at hk'
  · simp only [Function.update_of_ne heq] at hk'
    exact h.stopping k' n hk'

theorem Inv.resume {k : ℕ} (h : Inv s) (hstep : s.exec options (.resume k) = some s') : Inv s' := by
  simp only [State.exec] at hstep
  split at hstep
  · rename_i n hk
    split at hstep
    · rename_i hresolved
      obtain ⟨hstop, hn⟩ := h.stopping k n hk
      have hover : ∀ n' pass, s.passes n' = some pass → pass.phase.inFlight = false := by
        intro n' pass hpass
        by_contra hflight
        have hpass' : s.passes n' = some ⟨pass.phase, pass.rest⟩ := hpass
        obtain ⟨hn', -, -⟩ := h.under hpass' (by simpa using hflight)
        rw [hn, ← hn'] at hresolved
        simp only [State.resolved, hpass, Option.map_some] at hresolved
        cases hphase : pass.phase <;> simp [hphase, Phase.inFlight] at hresolved hflight
      cases hstep
      apply (h.letGo hover).resolve
      · simpa using hstop
      · exact letGo_held
      · simpa using hover
    · cases hstep
  · cases hstep

theorem Inv.step {e : Event} (h : Inv s) (hstep : s.exec options e = some s') : Inv s' := by
  cases e with
  | connected n => exact h.connected hstep
  | connectFailed n => exact h.connectFailed hstep
  | ok n dead => exact h.ok hstep
  | fail n => exact h.fail hstep
  | error c => exact h.error hstep
  | schedule n => exact h.schedule hstep
  | fire => exact h.fire hstep
  | stop => exact h.stop hstep
  | resume k => exact h.resume hstep

theorem inv_start : Inv (start options) := by
  unfold start
  refine Base.proceed ?_ rfl rfl (by simp) (by simp)
  constructor <;> simp

theorem inv_of_reachable (h : (loopSystem options).Reachable s) : Inv s := by
  apply h.invariant
  · rintro s rfl
    exact inv_start
  · intro s e s' _ hinv _ hstep
    exact hinv.step hstep

/-! ## Queries on connections that have failed -/

/-- Where no failed client is held, the next step starts no query on one. -/
private theorem proceed_failed {tasks rest : List Task} {query : Query}
    (hsound : ∀ c, s.held = some c → s.failed c = false)
    (hpass : (s.proceed n tasks).passes n = some ⟨.querying c query, rest⟩) :
    (s.proceed n tasks).failed c = false := by
  obtain ⟨phase, rest', heq, -, -, hquerying⟩ := exists_proceed s n tasks
  rw [heq] at hpass ⊢
  cases State.passes_self.symm.trans hpass
  exact hsound c (hquerying c query rfl).1

/-- Only the `ROLLBACK` after a failed query is started on a client that has failed. -/
theorem Inv.rollback_of_late {e : Event} {query : Query} (h : Inv s) (hstep : s.exec options e = some s')
    (hpass? : e.pass? s = some n) (hpass : s'.passes n = some ⟨.querying c query, rest⟩)
    (hfailed : s'.failed c = true) :
    query = .rollback ∧ ∃ before rest, s.passes n = some ⟨.querying c before, rest⟩ ∧ before ≠ .rollback := by
  cases e with
  | connected n' =>
    cases hpass?
    simp only [State.exec] at hstep
    split at hstep
    · cases hstep
      have hself := State.passes_self.symm.trans hpass
      cases hself
      simp [State.failed, State.setPass, State.setClient] at hfailed
    · cases hstep
  | connectFailed n' =>
    cases hpass?
    simp only [State.exec] at hstep
    split at hstep
    · rename_i task rest' hbefore
      cases hstep
      have hnone := h.connecting n task rest' hbefore
      have hsound := proceed_failed (fun c hc => absurd (hnone.symm.trans hc) (by simp)) hpass
      exact absurd (hsound.symm.trans hfailed) (by simp)
    · cases hstep
  | ok n' dead =>
    cases hpass?
    simp only [State.exec] at hstep
    split at hstep
    · rename_i c' rest' hbefore
      cases hstep
      exact absurd ((proceed_failed (h.discard_sound hbefore) hpass).symm.trans hfailed) (by simp)
    · rename_i c' query' rest' _ hbefore
      split at hstep
      · cases hstep
      · rename_i hsound
        split at hstep
        · cases hstep
          cases State.passes_self.symm.trans hpass
          exact absurd hfailed hsound
        · cases hstep
          have hheld := (h.querying n c' query' rest' hbefore).resolve_right hsound
          have hnext := proceed_failed (fun c hc => by
            obtain rfl : c = c' := Option.some.inj (hc.symm.trans hheld)
            simpa using hsound) hpass
          exact absurd (hnext.symm.trans hfailed) (by simp)
    · cases hstep
  | fail n' =>
    cases hpass?
    simp only [State.exec] at hstep
    split at hstep
    · rename_i c' before rest' hbefore
      split at hstep
      · rename_i htransaction
        cases hstep
        rw [failClient_passes] at hpass
        cases State.passes_self.symm.trans hpass
        refine ⟨rfl, before, rest, hbefore, ?_⟩
        rintro rfl
        cases htransaction
      · cases hstep
        exact absurd ((proceed_failed (h.failClient_sound hbefore) hpass).symm.trans hfailed) (by simp)
    · cases hstep
  | fire =>
    cases hpass?
    simp only [State.exec] at hstep
    split at hstep
    · rename_i harmed
      cases hstep
      have hnext := proceed_failed (fun c hc => by
        change s.failed c = false
        by_contra hfailed
        obtain ⟨rest, hroll⟩ := h.rolling c hc (by simpa using hfailed)
        cases (h.armed harmed).2 _ _ hroll) hpass
      exact absurd (hnext.symm.trans hfailed) (by simp)
    · cases hstep
  | error => cases hpass?
  | schedule => cases hpass?
  | stop => cases hpass?
  | resume => cases hpass?

/-- The other passes stay in their phase, or end. -/
theorem passes_of_step {e : Event} (hstep : s.exec options e = some s') (hpass? : e.pass? s ≠ some n) :
    s'.passes n = s.passes n ∨ ∃ rest, s'.passes n = some ⟨.ended, rest⟩ := by
  have hother : ∀ {t : State} {n' : ℕ} {tasks : List Task}, n ≠ n' →
      (t.proceed n' tasks).passes n = t.passes n := by
    intro t n' tasks hne
    obtain ⟨phase, rest, heq, -⟩ := exists_proceed t n' tasks
    rw [heq, State.passes_ne hne]
  cases e with
  | connected n' =>
    have hne : n ≠ n' := fun heq => hpass? (congrArg some heq.symm)
    simp only [State.exec] at hstep
    split at hstep
    · cases hstep
      exact .inl (State.passes_ne hne)
    · cases hstep
  | connectFailed n' =>
    have hne : n ≠ n' := fun heq => hpass? (congrArg some heq.symm)
    simp only [State.exec] at hstep
    split at hstep
    · cases hstep
      exact .inl (hother hne)
    · cases hstep
  | ok n' dead =>
    have hne : n ≠ n' := fun heq => hpass? (congrArg some heq.symm)
    simp only [State.exec] at hstep
    split at hstep
    · cases hstep
      exact .inl ((hother hne).trans (congrFun discard_passes n))
    · split at hstep
      · cases hstep
      · split at hstep
        · cases hstep
          exact .inl (State.passes_ne hne)
        · cases hstep
          exact .inl (hother hne)
    · cases hstep
  | fail n' =>
    have hne : n ≠ n' := fun heq => hpass? (congrArg some heq.symm)
    simp only [State.exec] at hstep
    split at hstep
    · split at hstep
      · cases hstep
        exact .inl ((congrFun failClient_passes n).trans (State.passes_ne hne))
      · cases hstep
        left
        rw [hother hne, discard_passes, failClient_passes]
    · cases hstep
  | error c =>
    simp only [State.exec] at hstep
    split at hstep
    · cases hstep
      left
      split
      · rw [discard_passes, failClient_passes]
      · rfl
    · cases hstep
  | schedule n' =>
    simp only [State.exec] at hstep
    split at hstep
    · rename_i rest _
      have hended : (s.setPass n' .ended rest).passes n = s.passes n ∨
          ∃ rest', (s.setPass n' .ended rest).passes n = some ⟨.ended, rest'⟩ := by
        by_cases heq : n = n'
        · exact .inr ⟨rest, heq ▸ State.passes_self⟩
        · exact .inl (State.passes_ne heq)
      cases hstep
      split <;> exact hended
    · cases hstep
  | fire =>
    have hne : n ≠ s.pending + 1 := fun heq => hpass? (congrArg some heq.symm)
    simp only [State.exec] at hstep
    split at hstep
    · cases hstep
      exact .inl (hother hne)
    · cases hstep
  | stop =>
    cases hstep
    exact .inl rfl
  | resume k =>
    simp only [State.exec] at hstep
    split at hstep
    · split at hstep
      · cases hstep
        exact .inl (congrFun letGo_passes n)
      · cases hstep
    · cases hstep

private theorem failed_proceed {tasks : List Task} : (s.proceed n tasks).failed = s.failed := by
  obtain ⟨phase, rest, heq, -⟩ := exists_proceed s n tasks
  rw [heq]
  rfl

private theorem failed_releaseClient {c' : ℕ} {error : Bool} :
    (s.releaseClient c error).failed c' = s.failed c' := by
  unfold State.releaseClient
  split
  · rename_i client hclient
    by_cases heq : c' = c
    · simp [State.failed, heq, State.clients_self, hclient]
    · simp [State.failed, State.clients_ne heq]
  · rfl

private theorem failed_discard {c' : ℕ} : (s.discard c).failed c' = s.failed c' := by
  unfold State.discard
  split
  · exact failed_releaseClient
  · rfl

/-- A client that has failed stays failed. -/
theorem Inv.failed_of_step {e : Event} {c : ℕ} (h : Inv s) (hstep : s.exec options e = some s')
    (hc : s.failed c = true) : s'.failed c = true := by
  cases e with
  | connected n =>
    simp only [State.exec] at hstep
    split at hstep
    · cases hstep
      cases hclient : s.clients c with
      | none => simp [State.failed, hclient] at hc
      | some client =>
        have hne : c ≠ s.nextClient := Nat.ne_of_lt (h.clients_lt c client hclient)
        have hsame : (s.setClient s.nextClient ⟨false, []⟩).clients c = s.clients c :=
          State.clients_ne hne
        simpa [State.failed, State.setPass, hsame] using hc
    · cases hstep
  | connectFailed n =>
    simp only [State.exec] at hstep
    split at hstep
    · cases hstep
      rwa [failed_proceed]
    · cases hstep
  | ok n dead =>
    simp only [State.exec] at hstep
    split at hstep
    · cases hstep
      rwa [failed_proceed, failed_discard]
    · split at hstep
      · cases hstep
      · split at hstep
        · cases hstep
          exact hc
        · cases hstep
          rwa [failed_proceed]
    · cases hstep
  | fail n =>
    simp only [State.exec] at hstep
    split at hstep
    · split at hstep
      · cases hstep
        exact failed_failClient hc
      · cases hstep
        rw [failed_proceed, failed_discard]
        exact failed_failClient hc
    · cases hstep
  | error c' =>
    simp only [State.exec] at hstep
    split at hstep
    · cases hstep
      split
      · rw [failed_discard]
        exact failed_failClient hc
      · exact hc
    · cases hstep
  | schedule n =>
    simp only [State.exec] at hstep
    split at hstep
    · cases hstep
      split <;> exact hc
    · cases hstep
  | fire =>
    simp only [State.exec] at hstep
    split at hstep
    · cases hstep
      rwa [failed_proceed]
    · cases hstep
  | stop =>
    cases hstep
    exact hc
  | resume k =>
    simp only [State.exec] at hstep
    split at hstep
    · split at hstep
      · cases hstep
        change s.letGo.failed c = true
        unfold State.letGo
        split
        · rw [failed_releaseClient]
          exact hc
        · exact hc
      · cases hstep
    · cases hstep

/-- Each client that was used too late is in its `ROLLBACK`, or is done with it. -/
structure Late (s : State) (late : List (ℕ × Query)) : Prop where
  rollback : ∀ use ∈ late, use.2 = .rollback
  nodup : (late.map Prod.fst).Nodup
  failed : ∀ c ∈ late.map Prod.fst, s.failed c = true
  rolling : ∀ c ∈ late.map Prod.fst, ∀ n query rest,
    s.passes n = some ⟨.querying c query, rest⟩ → query = .rollback

variable {late : List (ℕ × Query)}

/-- What a step does to the clients used before it. -/
private theorem Late.keep {e : Event} (h : Late s late) (hinv : Inv s)
    (hstep : s.exec options e = some s') : Late s' late := by
  refine ⟨h.rollback, h.nodup, fun c hc => hinv.failed_of_step hstep (h.failed c hc), ?_⟩
  intro c hc n query rest hpass
  by_cases hpass? : e.pass? s = some n
  · exact (hinv.rollback_of_late hstep hpass? hpass (hinv.failed_of_step hstep (h.failed c hc))).1
  · rcases passes_of_step hstep hpass? with hsame | ⟨rest', hended⟩
    · exact h.rolling c hc n query rest (hsame.symm.trans hpass)
    · cases hended.symm.trans hpass

private theorem startedQuery_eq {e : Event} {query : Query} (h : startedQuery s e s' = some (c, query)) :
    ∃ n rest, e.pass? s = some n ∧ s'.passes n = some ⟨.querying c query, rest⟩ := by
  unfold startedQuery at h
  cases hpass? : e.pass? s with
  | none => simp [hpass?] at h
  | some n =>
    simp only [hpass?, Option.bind_some] at h
    split at h
    · rename_i hpass
      cases h
      exact ⟨n, _, rfl, hpass⟩
    · cases h

theorem Late.step {e : Event} (h : Late s late) (hinv : Inv s) (hstep : s.exec options e = some s') :
    Late s' (note s e s' late) := by
  have hkeep := h.keep hinv hstep
  unfold note
  split
  · rename_i c query hstarted
    split
    · rename_i hfailed
      obtain ⟨n, rest, hpass?, hpass⟩ := startedQuery_eq hstarted
      obtain ⟨hquery, before, rest', hbefore, hne⟩ := hinv.rollback_of_late hstep hpass? hpass hfailed
      have hnew : c ∉ late.map Prod.fst :=
        fun hc => hne (h.rolling c hc n before rest' hbefore)
      constructor
      · exact List.forall_mem_cons.mpr ⟨hquery, h.rollback⟩
      · exact List.nodup_cons.mpr ⟨hnew, h.nodup⟩
      · exact List.forall_mem_cons.mpr ⟨hfailed, hkeep.failed⟩
      · refine List.forall_mem_cons.mpr ⟨fun n' query' rest'' hpass' => ?_, hkeep.rolling⟩
        -- Only one pass is under way, so it is the one that started the query.
        have hn := (hinv.step hstep).last n _ hpass (by simp)
        have hn' := (hinv.step hstep).last n' _ hpass' (by simp)
        rw [hn', ← hn, hpass] at hpass'
        cases hpass'
        exact hquery
    · exact hkeep
  · exact hkeep

/-! ## Main results -/

theorem Inv.ownsConnection (h : Inv s) (hlate : Late s late) : OwnsConnection (s, late) where
  onePass n n' pass pass' hpass hflight hpass' hflight' := by
    have hlast : ∀ n pass, s.passes n = some pass → pass.phase.inFlight = true → n = s.pending :=
      fun n pass hpass hflight => (h.under (show s.passes n = some ⟨pass.phase, pass.rest⟩ from hpass) hflight).1
    exact (hlast n pass hpass hflight).trans (hlast n' pass' hpass' hflight').symm
  oneClient c c' client client' hc hnone hc' hnone' := by
    rcases h.client c client hc with ⟨-, hheld⟩ | hreleased
    · rcases h.client c' client' hc' with ⟨-, hheld'⟩ | hreleased'
      · exact Option.some.inj (hheld.symm.trans hheld')
      · cases hnone'.symm.trans hreleased'
    · cases hnone.symm.trans hreleased
  released := h.client
  late := ⟨hlate.rollback, hlate.nodup⟩
  stopped k hk := by
    obtain ⟨hstop, hheld, hover⟩ := h.stopped k hk
    refine ⟨?_, hheld, hover, fun c client hc => ?_⟩
    · cases harmed : s.armed with
      | false => rfl
      | true => cases hstop.symm.trans (h.armed harmed).1
    · rcases h.client c client hc with ⟨-, hc'⟩ | hreleased
      · cases hheld.symm.trans hc'
      · exact hreleased

end

/--
In every run at most one pass is in flight and one connection held, each connection is
released once, destroyed if it failed, and used after it failed for the one `ROLLBACK` of
the transaction that failed on it; and after a `stop()` has resolved nothing is in flight,
armed or held.
-/
theorem owns_connection {options : Options} {p : State × List (ℕ × Query)}
    (h : (system options).Reachable p) : OwnsConnection p := by
  have hinv : Inv p.1 ∧ Late p.1 p.2 := by
    apply h.invariant (I := fun p => Inv p.1 ∧ Late p.1 p.2)
    · rintro ⟨s, late⟩ ⟨hs, hlate⟩
      obtain rfl : s = _ := hs
      obtain rfl : late = [] := hlate
      exact ⟨inv_start, by simp, by simp, by simp, by simp⟩
    · intro p e p' _ hp _ hstep
      obtain ⟨hexec, hnote⟩ := TransitionSystem.observe_step_iff.mp hstep
      rw [hnote]
      exact ⟨hp.1.step hexec, hp.2.step hp.1 hexec⟩
  exact hinv.1.ownsConnection hinv.2

namespace Trace

def options : Options := ⟨true, true⟩

/-- The heartbeat succeeds, and the connection fails in the transaction of the first sweep step. -/
def rolledBack : List Event :=
  [.connected 0, .ok 0 false, .ok 0 false, .error 0, .fail 0]

/-- A second connection is held for the rest of the pass, the next one fires, and two stops resolve. -/
def stopped : List Event :=
  rolledBack ++ [.fail 0, .connectFailed 0, .connected 0, .ok 0 false, .ok 0 false, .schedule 0,
    .fire, .stop, .ok 1 false, .ok 1 false, .ok 1 true, .stop, .ok 1 false, .ok 1 false, .ok 1 false,
    .ok 1 false, .ok 1 false, .ok 1 false, .ok 1 false, .schedule 1, .resume 0, .resume 1]

end Trace

theorem owns_connection_stopped : ∃ p, (system Trace.options).Reachable p ∧ OwnsConnection p ∧
    p.1.stops 0 = some .resolved ∧ p.1.stops 1 = some .resolved ∧
    p.1.clients 0 = some ⟨true, [true]⟩ ∧ p.1.clients 1 = some ⟨false, [false]⟩ := by
  obtain ⟨p, hreach, htest⟩ := (system Trace.options).exists_reachable_of_run Trace.stopped
    (fun p => p.1.stops 0 = some .resolved ∧ p.1.stops 1 = some .resolved ∧
      p.1.clients 0 = some ⟨true, [true]⟩ ∧ p.1.clients 1 = some ⟨false, [false]⟩)
    (s := (start Trace.options, [])) ⟨rfl, rfl⟩ (by decide)
  exact ⟨p, hreach, owns_connection hreach, of_decide_eq_true htest⟩

/-- A connection that failed in a transaction, and was destroyed, is used for the `ROLLBACK`. -/
theorem failed_connection_used : ∃ p, (system Trace.options).Reachable p ∧
    p.1.clients 0 = some ⟨true, [true]⟩ ∧ p.1.held = none ∧ p.2 = [(0, .rollback)] := by
  obtain ⟨p, hreach, htest⟩ := (system Trace.options).exists_reachable_of_run Trace.rolledBack
    (fun p => p.1.clients 0 = some ⟨true, [true]⟩ ∧ p.1.held = none ∧ p.2 = [(0, .rollback)])
    (s := (start Trace.options, [])) ⟨rfl, rfl⟩ (by decide)
  exact ⟨p, hreach, of_decide_eq_true htest⟩

end BetterGraphileWorker.Maintenance
