-- SUMMARY: The worker utilities of one client: getUtils and release over promises that settle at any time, and when no instance is leaked.
import Mathlib.Data.List.Basic
import Mathlib.Data.Nat.Notation
import BetterGraphileWorker.Library.Runs

/-!
# Worker utilities

A client creates its `WorkerUtils` at the first `getUtils()` and gives them up at `release()`.
A call that finds a release in flight waits for it once; a release that finds one in flight
shares its promise. Promises settle, and their callbacks run, in any order that respects
what they wait for.
-/

namespace BetterGraphileWorker.ClientUtils

/-- How far an instance is. A rejected initialization has a callback that clears the slot. -/
inductive Instance where
  | creating
  | live
  | failed (caught : Bool)
  | closing
  | closed
deriving DecidableEq

/-- Live or being created. -/
def Instance.alive : Instance → Bool
  | .creating | .live | .closing => true
  | .failed _ | .closed => false

/-- How far a release is: its function, its `finally`, the promise that callers await. -/
inductive Stage where
  | awaiting
  | closing
  | finished (ok : Bool)
  | cleared (ok : Bool)
  | settled (ok : Bool)
deriving DecidableEq

/-- A release, with the instance that it has taken from the slot. -/
structure Release where
  current : Option ℕ
  stage : Stage
deriving DecidableEq

inductive Call where
  | waiting (release : ℕ)
  | handed (inst : ℕ)
  | rejected
deriving DecidableEq

def Call.isWaiting : Call → Bool
  | .waiting _ => true
  | .handed _ | .rejected => false

structure State where
  pending : Option ℕ
  releasing : Option ℕ
  instances : ℕ → Option Instance
  releases : ℕ → Option Release
  calls : ℕ → Option Call
  nextInstance : ℕ
  nextRelease : ℕ
  nextCall : ℕ

inductive Event where
  | getUtils
  /-- `await releasing` continues in a `getUtils()` call. -/
  | resume (call : ℕ)
  /-- `makeWorkerUtils` settles. -/
  | initialized (inst : ℕ) (ok : Bool)
  | caught (inst : ℕ)
  | release
  /-- `await current` continues. -/
  | awaited (release : ℕ)
  /-- `utils.release()` settles. -/
  | closed (release : ℕ) (ok : Bool)
  | «finally» (release : ℕ)
  | settle (release : ℕ)
deriving DecidableEq

namespace State

variable (s : State)

def setInstance (i : ℕ) (stage : Instance) : State :=
  { s with instances := Function.update s.instances i (some stage) }

def setRelease (r : ℕ) (release : Release) : State :=
  { s with releases := Function.update s.releases r (some release) }

def setCall (k : ℕ) (call : Call) : State :=
  { s with calls := Function.update s.calls k (some call) }

section
variable {s} {i j : ℕ}

theorem instances_self {stage : Instance} : (s.setInstance i stage).instances i = some stage :=
  Function.update_self ..

theorem instances_ne {stage : Instance} (h : j ≠ i) :
    (s.setInstance i stage).instances j = s.instances j :=
  Function.update_of_ne h ..

theorem releases_self {release : Release} : (s.setRelease i release).releases i = some release :=
  Function.update_self ..

theorem releases_ne {release : Release} (h : j ≠ i) :
    (s.setRelease i release).releases j = s.releases j :=
  Function.update_of_ne h ..

theorem calls_self {call : Call} : (s.setCall i call).calls i = some call :=
  Function.update_self ..

theorem calls_ne {call : Call} (h : j ≠ i) : (s.setCall i call).calls j = s.calls j :=
  Function.update_of_ne h ..

end

/-- `if (!pending) ...; return pending`. -/
def acquire (k : ℕ) : State :=
  match s.pending with
  | some i => s.setCall k (.handed i)
  | none =>
    let s := (s.setCall k (.handed s.nextInstance)).setInstance s.nextInstance .creating
    { s with pending := some s.nextInstance, nextInstance := s.nextInstance + 1 }

def exec : Event → Option State
  | .getUtils =>
    let s' := { s with nextCall := s.nextCall + 1 }
    match s.releasing with
    | some r => some (s'.setCall s.nextCall (.waiting r))
    | none => some (s'.acquire s.nextCall)
  | .resume k =>
    match s.calls k with
    | some (.waiting r) =>
      match s.releases r with
      | some ⟨_, .settled true⟩ => some (s.acquire k)
      | some ⟨_, .settled false⟩ => some (s.setCall k .rejected)
      | _ => none
    | _ => none
  | .initialized i ok =>
    match s.instances i with
    | some .creating => some (s.setInstance i (if ok then .live else .failed false))
    | _ => none
  | .caught i =>
    match s.instances i with
    | some (.failed false) =>
      let s := s.setInstance i (.failed true)
      some (if s.pending = some i then { s with pending := none } else s)
    | _ => none
  | .release =>
    match s.releasing with
    | some _ => some s
    | none =>
      let stage := if s.pending.isSome then .awaiting else .finished true
      let s' := s.setRelease s.nextRelease ⟨s.pending, stage⟩
      some { s' with
        pending := none, releasing := some s.nextRelease, nextRelease := s.nextRelease + 1 }
  | .awaited r =>
    match s.releases r with
    | some ⟨some i, .awaiting⟩ =>
      match s.instances i with
      | some .live => some ((s.setRelease r ⟨some i, .closing⟩).setInstance i .closing)
      | some (.failed _) => some (s.setRelease r ⟨some i, .finished true⟩)
      | _ => none
    | _ => none
  | .closed r ok =>
    match s.releases r with
    | some ⟨some i, .closing⟩ =>
      some ((s.setRelease r ⟨some i, .finished ok⟩).setInstance i .closed)
    | _ => none
  | .finally r =>
    match s.releases r with
    | some ⟨current, .finished ok⟩ =>
      some { s.setRelease r ⟨current, .cleared ok⟩ with releasing := none }
    | _ => none
  | .settle r =>
    match s.releases r with
    | some ⟨current, .cleared ok⟩ => some (s.setRelease r ⟨current, .settled ok⟩)
    | _ => none

/-- A release has taken the instance. -/
def Taken (i : ℕ) : Prop := ∃ r release, s.releases r = some release ∧ release.current = some i

def Alive (i : ℕ) : Prop := ∃ stage, s.instances i = some stage ∧ stage.alive = true

/-- Some `getUtils()` call waits for a release. -/
def waits : Bool := (List.range s.nextCall).any fun k => (s.calls k).any Call.isWaiting

end State

/-! ## Histories -/

/-- What was called so far. -/
structure History where
  /-- How many `getUtils()` calls there were. -/
  gets : ℕ
  /-- The instances that a release had taken before a call. -/
  takenBefore : ℕ → ℕ → Prop
  /-- The instances whose `release()` was called. -/
  closes : List ℕ
  /-- The promises of the `release()` calls, and how many `getUtils()` calls there were before. -/
  releases : List (ℕ × ℕ)

def History.start : History := ⟨0, fun _ _ => False, [], []⟩

def note (s : State) (e : Event) (s' : State) (h : History) : History :=
  match e with
  | .getUtils =>
    { h with gets := h.gets + 1, takenBefore := Function.update h.takenBefore s.nextCall s.Taken }
  | .release =>
    match s'.releasing with
    | some r => { h with releases := (r, h.gets) :: h.releases }
    | none => h
  | .awaited r =>
    match s'.releases r with
    | some ⟨some i, .closing⟩ => { h with closes := i :: h.closes }
    | _ => h
  | _ => h

def clientSystem : TransitionSystem State Event where
  Init s := s = ⟨none, none, fun _ => none, fun _ => none, fun _ => none, 0, 0, 0⟩
  step s e := s.exec e

/-- The utilities of a client, with what was called. -/
def system : TransitionSystem (State × History) Event := clientSystem.observe .start note

/-- Nothing is leaked, released twice or handed out after its release. -/
structure NeverLeaked (p : State × History) : Prop where
  alone : ∀ i j, p.1.Alive i → p.1.Alive j → i = j
  closedOnce : p.2.closes.Nodup
  handed : ∀ k i, p.1.calls k = some (.handed i) → ¬p.2.takenBefore k i
  released : ∀ r gets current ok, (r, gets) ∈ p.2.releases →
    p.1.releases r = some ⟨current, .settled ok⟩ → p.2.gets = gets → ∀ i, ¬p.1.Alive i

/-- No `release()` is called while a `getUtils()` call waits for an earlier one. -/
def InTurn (p : State × History) (e : Event) : Prop := e = .release → p.1.waits = false

instance (p : State × History) (e : Event) : Decidable (InTurn p e) :=
  inferInstanceAs (Decidable (_ → _))

/-! ## The invariant -/

/-- The release still has its instance. -/
def Stage.holds : Stage → Bool
  | .awaiting | .closing => true
  | .finished _ | .cleared _ | .settled _ => false

/-- `releasing` is still the promise of the release. -/
def Stage.inFlight : Stage → Bool
  | .awaiting | .closing | .finished _ => true
  | .cleared _ | .settled _ => false

structure Inv (s : State) (h : History) : Prop where
  instances_lt : ∀ i stage, s.instances i = some stage → i < s.nextInstance
  releases_lt : ∀ r release, s.releases r = some release → r < s.nextRelease
  calls_lt : ∀ k call, s.calls k = some call → k < s.nextCall
  taken_lt : ∀ i, s.Taken i → i < s.nextInstance
  pending : ∀ i, s.pending = some i → ¬s.Taken i ∧ i < s.nextInstance
  inFlight : ∀ r release, s.releases r = some release → release.stage.inFlight = true →
    s.releasing = some r
  flying : ∀ r, s.releasing = some r →
    ∃ release, s.releases r = some release ∧ release.stage.inFlight = true
  releasing : ∀ r, s.releasing = some r → s.pending = none
  alive : ∀ i, s.Alive i → s.pending = some i ∨
    ∃ r stage, s.releases r = some ⟨some i, stage⟩ ∧ stage.holds = true
  waiting : ∀ k r r', s.calls k = some (.waiting r) → s.releasing = some r' → r = r'
  closes : ∀ i ∈ h.closes, s.instances i = some .closing ∨ s.instances i = some .closed
  closedOnce : h.closes.Nodup
  takenBefore : ∀ k i, h.takenBefore k i → s.Taken i
  handed : ∀ k i, s.calls k = some (.handed i) → ¬h.takenBefore k i
  noted : ∀ r gets, (r, gets) ∈ h.releases → gets ≤ h.gets
  quiet : ∀ r gets, (r, gets) ∈ h.releases → gets = h.gets → s.waits = false ∧ s.pending = none ∧
    ∀ i, s.Alive i → ∃ stage, s.releases r = some ⟨some i, stage⟩ ∧ stage.holds = true

section
variable {s s' : State} {h : History} {i k r : ℕ} {ok : Bool}

/-! ## Parts of a step -/

private theorem alive_setInstance {stage : Instance} {j : ℕ} :
    (s.setInstance i stage).Alive j ↔ if j = i then stage.alive = true else s.Alive j := by
  by_cases hj : j = i <;> simp [State.Alive, State.setInstance, hj]

/-- An instance moves on, and does not come to life. -/
theorem Inv.setInstance {new : Instance} (hinv : Inv s h) (hlt : i < s.nextInstance)
    (halive : new.alive = true → s.Alive i)
    (hcloses : i ∈ h.closes → new = .closing ∨ new = .closed) : Inv (s.setInstance i new) h := by
  have hbefore : ∀ j, (s.setInstance i new).Alive j → s.Alive j := by
    intro j hj
    rw [alive_setInstance] at hj
    split at hj
    · rename_i heq
      exact heq ▸ halive hj
    · exact hj
  refine { hinv with
    instances_lt := ?_
    alive := fun j hj => hinv.alive j (hbefore j hj)
    closes := ?_
    quiet := ?_ }
  · intro j stage hj
    by_cases heq : j = i
    · exact heq ▸ hlt
    · rw [State.instances_ne heq] at hj
      exact hinv.instances_lt j stage hj
  · intro j hj
    by_cases heq : j = i
    · subst heq
      simpa [State.instances_self] using hcloses hj
    · simpa [State.instances_ne heq] using hinv.closes j hj
  · intro r gets hmem hgets
    obtain ⟨hwaits, hpending, hholds⟩ := hinv.quiet r gets hmem hgets
    exact ⟨hwaits, hpending, fun j hj => hholds j (hbefore j hj)⟩

/-- A dead instance leaves the slot. -/
theorem Inv.clear (hinv : Inv s h) (hdead : ∀ j, s.pending = some j → ¬s.Alive j) :
    Inv { s with pending := none } h := by
  refine { hinv with pending := ?_, releasing := ?_, alive := ?_, quiet := ?_ }
  · intro j hj
    cases hj
  · intro _ _
    rfl
  · intro j hj
    rcases hinv.alive j hj with hpending | hheld
    · exact absurd hj (hdead j hpending)
    · exact .inr hheld
  · intro r gets hmem hgets
    obtain ⟨hwaits, -, hholds⟩ := hinv.quiet r gets hmem hgets
    exact ⟨hwaits, rfl, hholds⟩

private theorem taken_setRelease {old new : Release} (hold : s.releases r = some old)
    (hcurrent : new.current = old.current) : (s.setRelease r new).Taken = s.Taken := by
  funext j
  apply propext
  constructor
  · rintro ⟨r', release, hr', hj⟩
    by_cases heq : r' = r
    · subst heq
      rw [State.releases_self, Option.some.injEq] at hr'
      exact ⟨r', old, hold, by rw [← hcurrent, hr', hj]⟩
    · rw [State.releases_ne heq] at hr'
      exact ⟨r', release, hr', hj⟩
  · rintro ⟨r', release, hr', hj⟩
    by_cases heq : r' = r
    · subst heq
      rw [hold, Option.some.injEq] at hr'
      exact ⟨r', new, State.releases_self, by rw [hcurrent, hr', hj]⟩
    · exact ⟨r', release, by rwa [State.releases_ne heq], hj⟩

/-- A release moves on, lets no living instance go, and is given up when it is not in flight. -/
theorem Inv.setRelease {old new : Release} {releasing : Option ℕ} (hinv : Inv s h)
    (hold : s.releases r = some old) (hcurrent : new.current = old.current)
    (hflight : new.stage.inFlight = true → old.stage.inFlight = true)
    (hholds : ∀ j, s.Alive j → old.current = some j → old.stage.holds = true → new.stage.holds = true)
    (hreleasing : releasing = if s.releasing = some r ∧ new.stage.inFlight = false then none else s.releasing) :
    Inv { s.setRelease r new with releasing := releasing } h := by
  have hsame : ∀ r', releasing = some r' → s.releasing = some r' := by
    intro r' hr'
    rw [hreleasing] at hr'
    split at hr'
    · cases hr'
    · exact hr'
  have hkept : ∀ j r' stage, s.Alive j → s.releases r' = some ⟨some j, stage⟩ → stage.holds = true →
      ∃ stage, (s.setRelease r new).releases r' = some ⟨some j, stage⟩ ∧ stage.holds = true := by
    intro j r' stage hj hr' hstage
    by_cases heq : r' = r
    · subst heq
      rw [hold, Option.some.injEq] at hr'
      subst hr'
      refine ⟨new.stage, ?_, hholds j hj rfl hstage⟩
      rw [State.releases_self, ← show new.current = some j from hcurrent]
    · exact ⟨stage, by rwa [State.releases_ne heq], hstage⟩
  have htaken : (s.setRelease r new).Taken = s.Taken := taken_setRelease hold hcurrent
  refine { hinv with
    releases_lt := ?_
    taken_lt := fun j hj => hinv.taken_lt j (htaken ▸ hj)
    pending := fun j hj => htaken.symm ▸ hinv.pending j hj
    inFlight := ?_
    flying := ?_
    releasing := fun r' hr' => hinv.releasing r' (hsame r' hr')
    alive := ?_
    waiting := fun k r' r'' hk hr'' => hinv.waiting k r' r'' hk (hsame r'' hr'')
    takenBefore := ?_
    quiet := ?_ }
  · intro r' release hr'
    by_cases heq : r' = r
    · exact hinv.releases_lt r' old (heq ▸ hold)
    · exact hinv.releases_lt r' release ((State.releases_ne heq).symm.trans hr')
  · intro r' release hr' hstage
    by_cases heq : r' = r
    · subst heq
      have hnew := (State.releases_self (s := s)).symm.trans hr'
      rw [Option.some.injEq] at hnew
      subst hnew
      have hflying := hinv.inFlight r' old hold (hflight hstage)
      exact hreleasing.trans (by simp [hstage, hflying])
    · have hflying := hinv.inFlight r' release ((State.releases_ne heq).symm.trans hr') hstage
      exact hreleasing.trans (by simp [hflying, heq])
  · intro r' hr'
    by_cases heq : r' = r
    · subst heq
      refine ⟨new, State.releases_self, ?_⟩
      by_contra hstage
      simp [hreleasing, hsame r' hr', hstage] at hr'
    · obtain ⟨release, hrelease, hstage⟩ := hinv.flying r' (hsame r' hr')
      exact ⟨release, (State.releases_ne heq).trans hrelease, hstage⟩
  · intro j hj
    rcases hinv.alive j hj with hpending | ⟨r', stage, hr', hstage⟩
    · exact .inl hpending
    · exact .inr ⟨r', hkept j r' stage hj hr' hstage⟩
  · intro k j hj
    exact htaken.symm ▸ hinv.takenBefore k j hj
  · intro r' gets hmem hgets
    obtain ⟨hwaits, hpending, hheld⟩ := hinv.quiet r' gets hmem hgets
    refine ⟨hwaits, hpending, fun j hj => ?_⟩
    obtain ⟨stage, hr', hstage⟩ := hheld j hj
    exact hkept j r' stage hj hr' hstage

/-- A call waits, is handed an instance or is rejected, where something was called since every release. -/
theorem Inv.setCall {call : Call} (hinv : Inv s h) (hlt : k < s.nextCall)
    (hwaiting : ∀ r r', call = .waiting r → s.releasing = some r' → r = r')
    (hhanded : ∀ i, call = .handed i → ¬h.takenBefore k i)
    (hlate : ∀ r gets, (r, gets) ∈ h.releases → gets ≠ h.gets) : Inv (s.setCall k call) h := by
  refine { hinv with
    calls_lt := ?_
    waiting := ?_
    handed := ?_
    quiet := fun r gets hmem hgets => absurd hgets (hlate r gets hmem) }
  · intro k' call' hk'
    by_cases heq : k' = k
    · exact heq ▸ hlt
    · rw [State.calls_ne heq] at hk'
      exact hinv.calls_lt k' call' hk'
  · intro k' r r' hk' hr'
    by_cases heq : k' = k
    · subst heq
      rw [State.calls_self, Option.some.injEq] at hk'
      exact hwaiting r r' hk' hr'
    · rw [State.calls_ne heq] at hk'
      exact hinv.waiting k' r r' hk' hr'
  · intro k' j hk'
    by_cases heq : k' = k
    · subst heq
      rw [State.calls_self, Option.some.injEq] at hk'
      exact hhanded j hk'
    · rw [State.calls_ne heq] at hk'
      exact hinv.handed k' j hk'

/-- A new instance takes the free slot while no release is in flight. -/
theorem Inv.create (hinv : Inv s h) (hpending : s.pending = none) (hreleasing : s.releasing = none)
    (hlate : ∀ r gets, (r, gets) ∈ h.releases → gets ≠ h.gets) :
    Inv { s.setInstance s.nextInstance .creating with
      pending := some s.nextInstance, nextInstance := s.nextInstance + 1 } h := by
  refine { hinv with
    instances_lt := ?_
    taken_lt := fun j hj => Nat.lt_succ_of_lt (hinv.taken_lt j hj)
    pending := ?_
    releasing := fun r hr => absurd (hreleasing.symm.trans hr) (by simp)
    alive := ?_
    closes := ?_
    quiet := fun r gets hmem hgets => absurd hgets (hlate r gets hmem) }
  · intro j stage hj
    by_cases heq : j = s.nextInstance
    · exact heq ▸ Nat.lt_succ_self _
    · have hj' : s.instances j = some stage := (State.instances_ne heq).symm.trans hj
      exact Nat.lt_succ_of_lt (hinv.instances_lt j stage hj')
  · intro j hj
    cases hj
    exact ⟨fun htaken => absurd (hinv.taken_lt _ htaken) (Nat.lt_irrefl _), Nat.lt_succ_self _⟩
  · intro j hj
    have hj' := alive_setInstance.mp hj
    split at hj'
    · rename_i heq
      exact .inl (congrArg some heq.symm)
    · rcases hinv.alive j hj' with hold | hheld
      · exact absurd (hpending.symm.trans hold) (by simp)
      · exact .inr hheld
  · intro j hj
    have hne : j ≠ s.nextInstance := by
      intro heq
      rcases hinv.closes j hj with hj' | hj' <;>
        exact absurd (heq ▸ hinv.instances_lt j _ hj') (Nat.lt_irrefl _)
    have hsame : (s.setInstance s.nextInstance .creating).instances j = s.instances j :=
      State.instances_ne hne
    exact (hinv.closes j hj).imp hsame.trans hsame.trans

theorem Inv.acquire (hinv : Inv s h) (hlt : k < s.nextCall) (hreleasing : s.releasing = none)
    (hlate : ∀ r gets, (r, gets) ∈ h.releases → gets ≠ h.gets) : Inv (s.acquire k) h := by
  unfold State.acquire
  split
  · rename_i i hpending
    apply hinv.setCall hlt (by simp) _ hlate
    rintro _ ⟨⟩ htaken
    exact (hinv.pending i hpending).1 (hinv.takenBefore k i htaken)
  · rename_i hpending
    refine Inv.create (s := s.setCall k _) ?_ hpending hreleasing hlate
    apply hinv.setCall hlt (by simp) _ hlate
    rintro _ ⟨⟩ htaken
    exact absurd (hinv.taken_lt _ (hinv.takenBefore k _ htaken)) (Nat.lt_irrefl _)

/-- A new `getUtils()` call, which is later than every release. -/
theorem Inv.count (hinv : Inv s h) : Inv { s with nextCall := s.nextCall + 1 }
    { h with gets := h.gets + 1, takenBefore := Function.update h.takenBefore s.nextCall s.Taken } := by
  refine { hinv with
    calls_lt := fun k call hk => Nat.lt_succ_of_lt (hinv.calls_lt k call hk)
    takenBefore := ?_
    handed := ?_
    noted := fun r gets hmem => Nat.le_succ_of_le (hinv.noted r gets hmem)
    quiet := ?_ }
  · intro k i htaken
    change Function.update h.takenBefore s.nextCall s.Taken k i at htaken
    by_cases heq : k = s.nextCall
    · rwa [heq, Function.update_self] at htaken
    · rw [Function.update_of_ne heq] at htaken
      exact hinv.takenBefore k i htaken
  · intro k i hk
    have hne : k ≠ s.nextCall := Nat.ne_of_lt (hinv.calls_lt k _ hk)
    change ¬Function.update h.takenBefore s.nextCall s.Taken k i
    rw [Function.update_of_ne hne]
    exact hinv.handed k i hk
  · intro r gets hmem hgets
    exact absurd (hgets ▸ hinv.noted r gets hmem) (Nat.not_succ_le_self _)

private theorem Inv.waits (hinv : Inv s h) (hk : s.calls k = some (.waiting r)) : s.waits = true := by
  apply List.any_eq_true.mpr
  exact ⟨k, List.mem_range.mpr (hinv.calls_lt k _ hk), by rw [hk]; rfl⟩

theorem Inv.late (hinv : Inv s h) (hwaits : s.waits = true) :
    ∀ r gets, (r, gets) ∈ h.releases → gets ≠ h.gets := by
  intro r gets hmem hgets
  exact absurd hwaits (by simp [(hinv.quiet r gets hmem hgets).1])

/-- The release in flight holds every living instance. -/
theorem Inv.held (hinv : Inv s h) (hpending : s.pending = none) (hi : s.Alive i) :
    ∃ r stage, s.releasing = some r ∧ s.releases r = some ⟨some i, stage⟩ ∧ stage.holds = true := by
  rcases hinv.alive i hi with hslot | ⟨r, stage, hr, hstage⟩
  · exact absurd (hpending.symm.trans hslot) (by simp)
  · refine ⟨r, stage, hinv.inFlight r _ hr ?_, hr, hstage⟩
    cases stage <;> simp_all [Stage.holds, Stage.inFlight]

/-- A `release()` call that shares the promise in flight. -/
theorem Inv.share (hinv : Inv s h) (hreleasing : s.releasing = some r) (hturn : s.waits = false) :
    Inv s { h with releases := (r, h.gets) :: h.releases } := by
  refine { hinv with noted := ?_, quiet := ?_ }
  · intro r' gets hmem
    cases hmem with
    | head => exact Nat.le_refl _
    | tail _ hmem => exact hinv.noted r' gets hmem
  · intro r' gets hmem hgets
    cases hmem with
    | head =>
      have hpending := hinv.releasing r hreleasing
      refine ⟨hturn, hpending, fun i hi => ?_⟩
      obtain ⟨r', stage, hr', hcurrent, hstage⟩ := hinv.held hpending hi
      rw [hreleasing, Option.some.injEq] at hr'
      exact ⟨stage, hr' ▸ hcurrent, hstage⟩
    | tail _ hmem => exact hinv.quiet r' gets hmem hgets

/-- A `release()` call that takes the slot. -/
theorem Inv.take (hinv : Inv s h) (hreleasing : s.releasing = none) (hturn : s.waits = false) :
    Inv { s.setRelease s.nextRelease
        ⟨s.pending, if s.pending.isSome then .awaiting else .finished true⟩ with
      pending := none, releasing := some s.nextRelease, nextRelease := s.nextRelease + 1 }
      { h with releases := (s.nextRelease, h.gets) :: h.releases } := by
  have hnone : ∀ r stage i, s.releases r = some ⟨some i, stage⟩ → stage.holds = false := by
    intro r stage i hr
    cases hstage : stage.holds with
    | false => rfl
    | true =>
      have hflight := hinv.inFlight r _ hr (by cases stage <;> simp_all [Stage.holds, Stage.inFlight])
      exact absurd (hreleasing.symm.trans hflight) (by simp)
  have halive : ∀ i, s.Alive i → s.pending = some i := by
    intro i hi
    rcases hinv.alive i hi with hpending | ⟨r, stage, hr, hstage⟩
    · exact hpending
    · rw [hnone r stage i hr] at hstage
      cases hstage
  have hold : ∀ r release, s.releases r = some release → r ≠ s.nextRelease :=
    fun r release hr => Nat.ne_of_lt (hinv.releases_lt r release hr)
  have htaken : ∀ i, s.Taken i → (s.setRelease s.nextRelease
      ⟨s.pending, if s.pending.isSome then .awaiting else .finished true⟩).Taken i := by
    rintro i ⟨r, release, hr, hi⟩
    exact ⟨r, release, (State.releases_ne (hold r release hr)).trans hr, hi⟩
  have hnew : ∀ i, s.pending = some i → (s.setRelease s.nextRelease
      ⟨s.pending, if s.pending.isSome then .awaiting else .finished true⟩).releases s.nextRelease =
        some ⟨some i, .awaiting⟩ := by
    intro i hi
    rw [State.releases_self, hi]
    rfl
  constructor
  · exact hinv.instances_lt
  · intro r release hr
    by_cases heq : r = s.nextRelease
    · exact heq ▸ Nat.lt_succ_self _
    · exact Nat.lt_succ_of_lt (hinv.releases_lt r release ((State.releases_ne heq).symm.trans hr))
  · exact hinv.calls_lt
  · rintro i ⟨r, release, hr, hi⟩
    by_cases heq : r = s.nextRelease
    · subst heq
      have hself := (State.releases_self (s := s)).symm.trans hr
      rw [Option.some.injEq] at hself
      subst hself
      exact (hinv.pending i hi).2
    · exact hinv.taken_lt i ⟨r, release, (State.releases_ne heq).symm.trans hr, hi⟩
  · intro i hi
    cases hi
  · intro r release hr hstage
    by_cases heq : r = s.nextRelease
    · exact congrArg some heq.symm
    · have hflight := hinv.inFlight r release ((State.releases_ne heq).symm.trans hr) hstage
      exact absurd (hreleasing.symm.trans hflight) (by simp)
  · rintro r ⟨⟩
    refine ⟨_, State.releases_self, ?_⟩
    cases s.pending <;> rfl
  · intro _ _
    rfl
  · intro i hi
    exact .inr ⟨s.nextRelease, .awaiting, hnew i (halive i hi), rfl⟩
  · intro k r r' hk
    exact absurd (hinv.waits hk) (by simp [hturn])
  · exact hinv.closes
  · exact hinv.closedOnce
  · exact fun k i h => htaken i (hinv.takenBefore k i h)
  · exact hinv.handed
  · intro r gets hmem
    cases hmem with
    | head => exact Nat.le_refl _
    | tail _ hmem => exact hinv.noted r gets hmem
  · intro r gets hmem hgets
    refine ⟨hturn, rfl, fun i hi => ?_⟩
    cases hmem with
    | head => exact ⟨.awaiting, hnew i (halive i hi), rfl⟩
    | tail _ hmem =>
      -- A release after which nothing was called has left the slot empty.
      have hempty := (hinv.quiet r gets hmem hgets).2.1
      exact absurd (hempty.symm.trans (halive i hi)) (by simp)

/-! ## Steps -/

/-- What `await current` finds. -/
theorem Inv.awaited (hinv : Inv s h) (hstep : s.exec (.awaited r) = some s') :
    Inv s' (note s (.awaited r) s' h) := by
  simp only [State.exec] at hstep
  split at hstep
  · rename_i i hr
    split at hstep
    · rename_i hi
      cases hstep
      have hmoved : Inv (s.setRelease r ⟨some i, .closing⟩) h :=
        hinv.setRelease hr rfl (fun _ => rfl) (fun _ _ _ _ => rfl) (by simp [Stage.inFlight])
      have hfirst : i ∉ h.closes := by
        intro hmem
        rcases hinv.closes i hmem with hi' | hi' <;> simp [hi] at hi'
      have hclosing : Inv ((s.setRelease r ⟨some i, .closing⟩).setInstance i .closing) h :=
        hmoved.setInstance (hinv.instances_lt i _ hi) (fun _ => ⟨.live, hi, rfl⟩) fun _ => .inl rfl
      have hnote : note s (.awaited r) ((s.setRelease r ⟨some i, .closing⟩).setInstance i .closing) h =
          { h with closes := i :: h.closes } := by
        simp [note, State.setInstance, State.setRelease]
      rw [hnote]
      refine { hclosing with closes := ?_, closedOnce := List.nodup_cons.mpr ⟨hfirst, hinv.closedOnce⟩ }
      intro j hj
      cases hj with
      | head => exact .inl State.instances_self
      | tail _ hj => exact hclosing.closes j hj
    · rename_i hi
      cases hstep
      have hdead : ¬s.Alive i := by
        rintro ⟨stage, hstage, halive⟩
        rw [hi, Option.some.injEq] at hstage
        simp [← hstage, Instance.alive] at halive
      have hnote : note s (.awaited r) (s.setRelease r ⟨some i, .finished true⟩) h = h := by
        simp [note, State.setRelease]
      have hmoved : Inv (s.setRelease r ⟨some i, .finished true⟩) h := by
        refine hinv.setRelease hr rfl (fun _ => rfl) ?_ (by simp [Stage.inFlight])
        rintro j hj ⟨⟩
        exact absurd hj hdead
      rwa [hnote]
    · cases hstep
  · cases hstep

theorem Inv.release (hinv : Inv s h) (hturn : s.waits = false) (hstep : s.exec .release = some s') :
    Inv s' (note s .release s' h) := by
  simp only [State.exec] at hstep
  split at hstep
  · rename_i r hreleasing
    cases hstep
    simpa only [note, hreleasing] using hinv.share hreleasing hturn
  · rename_i hreleasing
    cases hstep
    exact hinv.take hreleasing hturn

theorem Inv.resume (hinv : Inv s h) (hstep : s.exec (.resume k) = some s') : Inv s' h := by
  simp only [State.exec] at hstep
  split at hstep
  · rename_i r hk
    have hlate := hinv.late (hinv.waits hk)
    have hlt := hinv.calls_lt k _ hk
    have hreleasing : ∀ current ok, s.releases r = some ⟨current, .settled ok⟩ → s.releasing = none := by
      intro current ok hr
      by_contra hsome
      obtain ⟨r', hr'⟩ := Option.ne_none_iff_exists'.mp hsome
      obtain rfl := hinv.waiting k r r' hk hr'
      obtain ⟨release, hrelease, hstage⟩ := hinv.flying r hr'
      rw [hr, Option.some.injEq] at hrelease
      simp [← hrelease, Stage.inFlight] at hstage
    split at hstep
    · rename_i current hr
      cases hstep
      exact hinv.acquire hlt (hreleasing current true hr) hlate
    · cases hstep
      exact hinv.setCall hlt (by simp) (by simp) hlate
    · cases hstep
  · cases hstep

theorem Inv.getUtils (hinv : Inv s h) (hstep : s.exec .getUtils = some s') :
    Inv s' (note s .getUtils s' h) := by
  have hcount := hinv.count
  have hlate : ∀ r gets, (r, gets) ∈ h.releases → gets ≠ h.gets + 1 :=
    fun r gets hmem => Nat.ne_of_lt (Nat.lt_succ_of_le (hinv.noted r gets hmem))
  simp only [State.exec] at hstep
  split at hstep
  · rename_i r hreleasing
    cases hstep
    apply hcount.setCall (Nat.lt_succ_self _) _ (by simp) hlate
    rintro _ r' ⟨⟩ hr'
    exact Option.some.inj (hreleasing.symm.trans hr')
  · rename_i hreleasing
    cases hstep
    exact hcount.acquire (Nat.lt_succ_self _) hreleasing hlate

theorem Inv.initialized (hinv : Inv s h) (hstep : s.exec (.initialized i ok) = some s') :
    Inv s' h := by
  simp only [State.exec] at hstep
  split at hstep
  · rename_i hi
    cases hstep
    apply hinv.setInstance (hinv.instances_lt i _ hi) fun _ => ⟨.creating, hi, rfl⟩
    intro hmem
    rcases hinv.closes i hmem with hi' | hi' <;> simp [hi] at hi'
  · cases hstep

theorem Inv.caught (hinv : Inv s h) (hstep : s.exec (.caught i) = some s') : Inv s' h := by
  simp only [State.exec] at hstep
  split at hstep
  · rename_i hi
    have hmoved : Inv (s.setInstance i (.failed true)) h := by
      apply hinv.setInstance (hinv.instances_lt i _ hi) (by simp [Instance.alive])
      intro hmem
      rcases hinv.closes i hmem with hi' | hi' <;> simp [hi] at hi'
    split at hstep
    · rename_i hpending
      cases hstep
      apply hmoved.clear
      intro j hj
      have heq : j = i := Option.some.inj (hj.symm.trans hpending)
      simp [alive_setInstance, heq, Instance.alive]
    · cases hstep
      exact hmoved
  · cases hstep

theorem Inv.closed (hinv : Inv s h) (hstep : s.exec (.closed r ok) = some s') : Inv s' h := by
  simp only [State.exec] at hstep
  split at hstep
  · rename_i i hr
    cases hstep
    have hdead : Inv (s.setInstance i .closed) h :=
      hinv.setInstance (hinv.taken_lt i ⟨r, _, hr, rfl⟩) (by simp [Instance.alive]) fun _ => .inr rfl
    have hcurrent : (Release.mk (some i) (.finished ok)).current = some i := rfl
    refine hdead.setRelease hr hcurrent (fun _ => rfl) ?_ ?_
    · rintro j hj ⟨⟩
      simp [alive_setInstance, Instance.alive] at hj
    · simp [Stage.inFlight, State.setRelease, State.setInstance]
  · cases hstep

theorem Inv.finally (hinv : Inv s h) (hstep : s.exec (.finally r) = some s') : Inv s' h := by
  simp only [State.exec] at hstep
  split at hstep
  · rename_i current ok hr
    cases hstep
    have hreleasing := hinv.inFlight r _ hr rfl
    have hcurrent : (Release.mk current (.cleared ok)).current = current := rfl
    apply hinv.setRelease hr hcurrent
    · simp [Stage.inFlight]
    · simp [Stage.holds]
    · simp [Stage.inFlight, hreleasing]
  · cases hstep

theorem Inv.settle (hinv : Inv s h) (hstep : s.exec (.settle r) = some s') : Inv s' h := by
  simp only [State.exec] at hstep
  split at hstep
  · rename_i current ok hr
    cases hstep
    have hgone : s.releasing ≠ some r := by
      intro hreleasing
      obtain ⟨release, hrelease, hstage⟩ := hinv.flying r hreleasing
      rw [hr, Option.some.injEq] at hrelease
      simp [← hrelease, Stage.inFlight] at hstage
    have hcurrent : (Release.mk current (.settled ok)).current = current := rfl
    apply hinv.setRelease hr hcurrent
    · simp [Stage.inFlight]
    · simp [Stage.holds]
    · simp [hgone]
  · cases hstep

/-- One step, unless it releases while a call waits. -/
theorem Inv.step {e : Event} (hinv : Inv s h) (hturn : InTurn (s, h) e) (hstep : s.exec e = some s') :
    Inv s' (note s e s' h) := by
  cases e with
  | getUtils => exact hinv.getUtils hstep
  | resume k => exact hinv.resume hstep
  | initialized i ok => exact hinv.initialized hstep
  | caught i => exact hinv.caught hstep
  | release => exact hinv.release (hturn rfl) hstep
  | awaited r => exact hinv.awaited hstep
  | closed r ok => exact hinv.closed hstep
  | «finally» r => exact hinv.finally hstep
  | settle r => exact hinv.settle hstep

theorem Inv.neverLeaked (hinv : Inv s h) : NeverLeaked (s, h) where
  alone i j hi hj := by
    cases hpending : s.pending with
    | none =>
      obtain ⟨r, stage, hr, hcurrent, -⟩ := hinv.held hpending hi
      obtain ⟨r', stage', hr', hcurrent', -⟩ := hinv.held hpending hj
      rw [hr, Option.some.injEq] at hr'
      subst hr'
      rw [hcurrent] at hcurrent'
      simpa using (Release.mk.inj (Option.some.inj hcurrent')).1
    | some k =>
      have hslot : ∀ l, s.Alive l → l = k := by
        intro l hl
        rcases hinv.alive l hl with hl' | ⟨r, stage, hr, hstage⟩
        · exact Option.some.inj (hl'.symm.trans hpending)
        · have hreleasing := hinv.inFlight r _ hr
            (by cases stage <;> simp_all [Stage.holds, Stage.inFlight])
          exact absurd ((hinv.releasing r hreleasing).symm.trans hpending) (by simp)
      rw [hslot i hi, hslot j hj]
  closedOnce := hinv.closedOnce
  handed := hinv.handed
  released r gets current ok hmem hr hgets i hi := by
    obtain ⟨stage, hheld, hstage⟩ := (hinv.quiet r gets hmem hgets.symm).2.2 i hi
    rw [show s.releases r = _ from hr, Option.some.injEq] at hheld
    have heq : Stage.settled ok = stage := congrArg Release.stage hheld
    simp [← heq, Stage.holds] at hstage

end

theorem inv_of_reachable {p : State × History} (h : system.ReachableWith InTurn p) : Inv p.1 p.2 := by
  apply h.invariant (I := fun p => Inv p.1 p.2)
  · rintro ⟨s, h⟩ ⟨hs, hh⟩
    obtain rfl : s = _ := hs
    obtain rfl : h = _ := hh
    constructor <;>
      simp [History.start, State.Taken, State.Alive]
  · intro p e p' _ hinv hturn hstep
    obtain ⟨hexec, hnote⟩ := TransitionSystem.observe_step_iff.mp hstep
    rw [hnote]
    exact hinv.step hturn hexec

/--
In every run in which no `release()` is called while a `getUtils()` call waits for an
earlier one, at most one instance is live or being created, none is released twice or
handed to a call after its release had started, and none is left once a release has
resolved that no `getUtils()` call came after.
-/
theorem never_leaked {p : State × History} (h : system.ReachableWith InTurn p) : NeverLeaked p :=
  (inv_of_reachable h).neverLeaked

namespace Trace

def start : State × History :=
  (⟨none, none, fun _ => none, fun _ => none, fun _ => none, 0, 0, 0⟩, .start)

/-- One instance is created, shared and released; a call that waited gets a second one. -/
def reopened : List Event :=
  [.getUtils, .initialized 0 true, .getUtils, .release, .getUtils, .awaited 0, .closed 0 true,
    .finally 0, .settle 0, .resume 2, .initialized 1 true]

/-- A second `release()` shares the promise that a `getUtils()` call waits for. -/
def leaked : List Event :=
  [.getUtils, .initialized 0 true, .release, .getUtils, .release, .awaited 0, .closed 0 true,
    .finally 0, .settle 0, .resume 1]

/-- An instance is created and given up while a call waits for the release before. -/
def doubled : List Event :=
  [.getUtils, .initialized 0 true, .release, .getUtils, .awaited 0, .closed 0 true, .finally 0,
    .settle 0, .getUtils, .release, .resume 1]

end Trace

theorem never_leaked_reopened : ∃ p, system.ReachableWith InTurn p ∧ NeverLeaked p ∧
    p.1.instances 0 = some .closed ∧ p.1.instances 1 = some .live ∧
    p.1.calls 2 = some (.handed 1) := by
  obtain ⟨p, hreach, htest⟩ := system.exists_reachableWith_of_runWith Trace.reopened
    (fun p => p.1.instances 0 = some .closed ∧ p.1.instances 1 = some .live ∧
      p.1.calls 2 = some (.handed 1))
    (c := fun p e => decide (InTurn p e)) (fun _ _ h => of_decide_eq_true h)
    (s := Trace.start) ⟨rfl, rfl⟩ (by decide)
  exact ⟨p, hreach, never_leaked hreach, of_decide_eq_true htest⟩

/--
A release has resolved after the last call while an instance is being created, and in
another run two instances are being created at once.
-/
theorem instances_leaked :
    (∃ p, system.Reachable p ∧ p.2.releases = [(0, 2), (0, 1)] ∧ p.2.gets = 2 ∧
      p.1.releases 0 = some ⟨some 0, .settled true⟩ ∧ p.1.instances 1 = some .creating ∧
      ¬NeverLeaked p) ∧
    ∃ p, system.Reachable p ∧ p.1.instances 1 = some .creating ∧ p.1.instances 2 = some .creating ∧
      ¬NeverLeaked p := by
  constructor
  · obtain ⟨p, hreach, htest⟩ := system.exists_reachable_of_run Trace.leaked
      (fun p => p.2.releases = [(0, 2), (0, 1)] ∧ p.2.gets = 2 ∧
        p.1.releases 0 = some ⟨some 0, .settled true⟩ ∧ p.1.instances 1 = some .creating)
      (s := Trace.start) ⟨rfl, rfl⟩ (by decide)
    obtain ⟨hreleases, hgets, hsettled, hcreating⟩ := of_decide_eq_true htest
    refine ⟨p, hreach, hreleases, hgets, hsettled, hcreating, fun hnever => ?_⟩
    have hmem : (0, 2) ∈ p.2.releases := by rw [hreleases]; exact List.mem_cons_self
    exact hnever.released 0 2 (some 0) true hmem hsettled hgets 1 ⟨.creating, hcreating, rfl⟩
  · obtain ⟨p, hreach, htest⟩ := system.exists_reachable_of_run Trace.doubled
      (fun p => p.1.instances 1 = some .creating ∧ p.1.instances 2 = some .creating)
      (s := Trace.start) ⟨rfl, rfl⟩ (by decide)
    obtain ⟨hfirst, hsecond⟩ := of_decide_eq_true htest
    refine ⟨p, hreach, hfirst, hsecond, fun hnever => ?_⟩
    exact absurd (hnever.alone 1 2 ⟨.creating, hfirst, rfl⟩ ⟨.creating, hsecond, rfl⟩) (by decide)

end BetterGraphileWorker.ClientUtils
