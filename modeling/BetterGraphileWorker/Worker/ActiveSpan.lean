-- SUMMARY: withActiveSpan of otel.ts beside an adapter that may do anything with the callback it is given.
import Mathlib.Data.List.Infix
import BetterGraphileWorker.Library.Runs
import BetterGraphileWorker.Worker.Observers

/-!
# Active spans

`startActiveSpan` belongs to a tracing adapter. It may call its callback any number of
times, now or later, throw, and return a promise that settles as it likes. What
`withActiveSpan` does about each of these is one step here; a call of `fn` is a promise
that may settle or not. The routines have a transparent adapter.
-/

namespace BetterGraphileWorker

/-- Where `withActiveSpan` is. -/
inductive SpanCaller (α : Type) where
  /-- In `getTracer` or `startActiveSpan`. -/
  | starting
  /-- Awaits what `startActiveSpan` returned. -/
  | awaiting
  | fulfilled (value : α)
  /-- Has returned `execution` from `catch`. -/
  | following
  /-- Has returned the promise of its own call of `fn`. -/
  | direct

/-- The variable `execution`, once the callback was called. -/
inductive Execution (α ε : Type) where
  /-- `fn` is called in a later turn. -/
  | scheduled
  | called (promise : Option (Except ε α))

structure ActiveSpan (α ε : Type) where
  caller : SpanCaller α
  execution : Option (Execution α ε)
  /-- The promise of the call of `fn` with a span that does nothing. -/
  plain : Option (Option (Except ε α))

/-- What the adapter does, and when `fn` is called and settles. -/
inductive SpanAct (α ε : Type) where
  /-- The adapter calls the callback. -/
  | call
  | throws
  | returns
  /-- The promise that `startActiveSpan` returned settles. -/
  | fulfils (value : α)
  | rejects (error : ε)
  /-- The callback's turn to call `fn`. -/
  | run
  | settle (result : Except ε α)
  | settlePlain (result : Except ε α)

variable {α ε : Type}

def Execution.promise : Execution α ε → Option (Except ε α)
  | .scheduled => none
  | .called promise => promise

def Execution.promises : Execution α ε → List (Option (Except ε α))
  | .scheduled => []
  | .called promise => [promise]

namespace ActiveSpan

variable (s : ActiveSpan α ε)

/-- Without an adapter `fn` is called at once. -/
def initial (api : Bool) : ActiveSpan α ε :=
  if api then ⟨.starting, none, none⟩ else ⟨.direct, none, some none⟩

/-- The promises of the calls of `fn`. -/
def promises : List (Option (Except ε α)) :=
  (s.execution.elim [] Execution.promises) ++ s.plain.toList

/-- How the promise of `withActiveSpan` has settled. -/
def result : Option (Except ε α) :=
  match s.caller with
  | .starting | .awaiting => none
  | .fulfilled value => some (.ok value)
  | .following => s.execution.bind Execution.promise
  | .direct => s.plain.join

/-- `catch` of `withActiveSpan`. -/
def fallBack : ActiveSpan α ε :=
  match s.execution with
  | some _ => { s with caller := .following }
  | none => { s with caller := .direct, plain := some none }

def step (api : Bool) : SpanAct α ε → Option (ActiveSpan α ε)
  | .call => if api then some { s with execution := s.execution <|> some .scheduled } else none
  | .throws =>
    match s.caller with
    | .starting => some s.fallBack
    | _ => none
  | .returns =>
    match s.caller with
    | .starting => some { s with caller := .awaiting }
    | _ => none
  | .fulfils value =>
    match s.caller with
    | .awaiting => some { s with caller := .fulfilled value }
    | _ => none
  | .rejects _ =>
    match s.caller with
    | .awaiting => some s.fallBack
    | _ => none
  | .run =>
    match s.caller, s.execution with
    -- The adapter's own code runs first.
    | .starting, _ => none
    | _, some .scheduled => some { s with execution := some (.called none) }
    | _, _ => none
  | .settle result =>
    match s.execution with
    | some (.called none) => some { s with execution := some (.called (some result)) }
    | _ => none
  | .settlePlain result =>
    match s.plain with
    | some none => some { s with plain := some (some result) }
    | _ => none

/-- Nothing is left to come but further calls of the callback, and the results of `fn`. -/
def Quiet : Prop :=
  match s.caller, s.execution with
  | .starting, _ | .awaiting, _ | _, some .scheduled => False
  | _, _ => True

/-- How `executeTask` ends: it rethrows the signal its body returned. -/
def outcome (suspended : α → Option ε) : Option (Except ε Unit) :=
  s.result.map fun result => result.bind fun value =>
    match suspended value with
    | some signal => .error signal
    | none => .ok ()

end ActiveSpan

/-- `withActiveSpan`, with what has happened so far. -/
def spans (api : Bool) : TransitionSystem (ActiveSpan α ε × List (SpanAct α ε)) (SpanAct α ε) :=
  TransitionSystem.observe ⟨(· = .initial api), fun s act => s.step api act⟩ []
    fun _ act _ past => past ++ [act]

/-- The adapter throws, or its promise rejects. -/
def SpanAct.Fails : SpanAct α ε → Prop
  | .throws | .rejects _ => True
  | _ => False

/-- The adapter failed before it called the callback. -/
def FailedUncalled (past : List (SpanAct α ε)) : Prop :=
  ∃ before act after, past = before ++ act :: after ∧ act.Fails ∧ .call ∉ before

/--
The adapter fulfils its promise only with what `fn` has resolved with, and does not
call the callback when it failed without having called it.
-/
structure Transparent (past : List (SpanAct α ε)) : Prop where
  fulfils : ∀ before value after, past = before ++ .fulfils value :: after →
    .settle (.ok value) ∈ before
  fails : FailedUncalled past → .call ∉ past

/--
`fn` is called exactly once, and the promise of `withActiveSpan` settles as its promise
does, never before it.
-/
def RunsOnce (api : Bool) (s : ActiveSpan α ε) (past : List (SpanAct α ε)) : Prop :=
  (∀ s' before, before <+: past → (spans api).Reachable (s', before) → s'.result.isSome →
    s'.promises = [s'.result]) ∧
  s.promises = [s.result]

/-! ## What the acts leave behind -/

/-- The last act of a history is one of its acts, or comes after them all. -/
private theorem snoc_eq_split {before after past : List (SpanAct α ε)} {act act' : SpanAct α ε}
    (h : past ++ [act] = before ++ act' :: after) :
    (before = past ∧ act' = act) ∨ ∃ after', past = before ++ act' :: after' := by
  cases after using List.reverseRecOn with
  | nil =>
    have hsnoc : past ++ [act] = before ++ [act'] := h
    obtain ⟨rfl, hact⟩ := List.append_inj' hsnoc rfl
    exact .inl ⟨rfl, (List.singleton_inj.mp hact).symm⟩
  | append_singleton after' last =>
    have hsnoc : past ++ [act] = (before ++ act' :: after') ++ [last] := by simpa using h
    exact .inr ⟨after', (List.append_inj' hsnoc rfl).1⟩

theorem failedUncalled_snoc {past : List (SpanAct α ε)} {act : SpanAct α ε} :
    FailedUncalled (past ++ [act]) ↔ FailedUncalled past ∨ (act.Fails ∧ .call ∉ past) := by
  constructor
  · rintro ⟨before, act', after, hpast, hfails, hcall⟩
    rcases snoc_eq_split hpast with ⟨rfl, rfl⟩ | ⟨after', rfl⟩
    · exact .inr ⟨hfails, hcall⟩
    · exact .inl ⟨before, act', after', rfl, hfails, hcall⟩
  · rintro (⟨before, act', after, rfl, hfails, hcall⟩ | ⟨hfails, hcall⟩)
    · exact ⟨before, act', after ++ [act], by simp, hfails, hcall⟩
    · exact ⟨past, act, [], rfl, hfails, hcall⟩

theorem Transparent.of_prefix {before past : List (SpanAct α ε)} (hinitial : before <+: past)
    (h : Transparent past) : Transparent before := by
  obtain ⟨rest, rfl⟩ := hinitial
  constructor
  · intro start value after hsplit
    exact h.fulfils start value (after ++ rest) (by simp [hsplit])
  · rintro ⟨start, act, after, rfl, hfails, hcall⟩ hmem
    exact h.fails ⟨start, act, after ++ rest, by simp, hfails, hcall⟩ (List.mem_append_left _ hmem)

/-- What a history says about the state it leads to. -/
structure Traced (api : Bool) (s : ActiveSpan α ε) (past : List (SpanAct α ε)) : Prop where
  called : s.execution.isSome ↔ .call ∈ past
  settled : ∀ r, s.execution = some (.called (some r)) ↔ .settle r ∈ past
  direct : s.plain.isSome ↔ s.caller = .direct
  plain : s.plain.isSome ↔ api = false ∨ FailedUncalled past
  fulfilled : ∀ value, s.caller = .fulfilled value → .fulfils value ∈ past
  following : s.caller = .following → s.execution.isSome
  noAdapter : api = false → .call ∉ past

theorem Traced.exec {api : Bool} {s s' : ActiveSpan α ε} {past : List (SpanAct α ε)}
    {act : SpanAct α ε} (h : Traced api s past) (hstep : s.step api act = some s') :
    Traced api s' (past ++ [act]) := by
  obtain ⟨called, settled, direct, plain, fulfilled, following, noAdapter⟩ := h
  have hfailed : FailedUncalled (past ++ [act]) ↔ _ := failedUncalled_snoc
  obtain ⟨caller, execution, promise⟩ := s
  cases act with
  | call =>
    simp only [ActiveSpan.step, Option.ite_none_right_eq_some, Option.some.injEq] at hstep
    obtain ⟨hapi, rfl⟩ := hstep
    constructor <;> cases execution <;> simp_all [SpanAct.Fails]
  | throws | rejects =>
    -- Both end in `catch`, which asks whether the callback was called.
    simp only [ActiveSpan.step] at hstep
    split at hstep
    · simp only [Option.some.injEq] at hstep
      subst hstep
      cases execution <;> constructor <;> simp_all [SpanAct.Fails, ActiveSpan.fallBack]
    · cases hstep
  | returns | fulfils =>
    simp only [ActiveSpan.step] at hstep
    split at hstep
    · simp only [Option.some.injEq] at hstep
      subst hstep
      constructor <;> simp_all [SpanAct.Fails]
    · cases hstep
  | run =>
    simp only [ActiveSpan.step] at hstep
    split at hstep
    · cases hstep
    · simp only [Option.some.injEq] at hstep
      subst hstep
      constructor <;> simp_all [SpanAct.Fails]
    · cases hstep
  | settle result =>
    simp only [ActiveSpan.step] at hstep
    split at hstep
    · simp only [Option.some.injEq] at hstep
      subst hstep
      constructor <;> simp_all [SpanAct.Fails]
      exact fun _ => eq_comm
    · cases hstep
  | settlePlain result =>
    simp only [ActiveSpan.step] at hstep
    split at hstep
    · simp only [Option.some.injEq] at hstep
      subst hstep
      constructor <;> simp_all [SpanAct.Fails]
    · cases hstep

theorem traced {api : Bool} {p : ActiveSpan α ε × List (SpanAct α ε)}
    (h : (spans api).Reachable p) : Traced api p.1 p.2 := by
  refine h.invariant (I := fun p => Traced api p.1 p.2) ?_ ?_
  · rintro ⟨s, past⟩ ⟨rfl, rfl⟩
    cases api <;> constructor <;> simp [ActiveSpan.initial, FailedUncalled]
  · rintro ⟨s, past⟩ act ⟨s', past'⟩ - htraced - hstep
    obtain ⟨hstep, rfl⟩ := TransitionSystem.observe_step_iff.mp hstep
    exact htraced.exec hstep

/-! ## The moments of a run -/

theorem reachable_of_prefix {api : Bool} {p : ActiveSpan α ε × List (SpanAct α ε)}
    (h : (spans api).Reachable p) {before : List (SpanAct α ε)} (hinitial : before <+: p.2) :
    ∃ s, (spans api).Reachable (s, before) := by
  induction h with
  | @init p hinit =>
    obtain ⟨s, past⟩ := p
    obtain ⟨rfl, rfl⟩ := hinit
    obtain rfl := List.prefix_nil.mp hinitial
    exact ⟨.initial api, .init ⟨rfl, rfl⟩⟩
  | @step p p' act hr hc hstep ih =>
    rw [(TransitionSystem.observe_step_iff.mp hstep).2, List.prefix_concat_iff] at hinitial
    rcases hinitial with rfl | hinitial
    · exact ⟨p'.1, (TransitionSystem.observe_step_iff.mp hstep).2 ▸ .step hr hc hstep⟩
    · exact ih hinitial

theorem last_step {api : Bool} {past : List (SpanAct α ε)} {act : SpanAct α ε}
    {s : ActiveSpan α ε} (h : (spans api).Reachable (s, past ++ [act])) :
    ∃ s₀, (spans api).Reachable (s₀, past) ∧ s₀.step api act = some s := by
  generalize hp : (s, past ++ [act]) = p at h
  cases h with
  | init hinit =>
    obtain ⟨-, hnil⟩ := hinit
    simp [← hp] at hnil
  | @step p _ act' hr _ hstep =>
    obtain rfl := hp
    obtain ⟨hact, hpast⟩ := TransitionSystem.observe_step_iff.mp hstep
    obtain ⟨rfl, hlast⟩ := List.append_inj' hpast rfl
    obtain rfl := List.singleton_inj.mp hlast
    exact ⟨p.1, hr, hact⟩

/-- An adapter that is transparent lets the promise settle as the one promise of `fn`. -/
theorem Traced.promises_eq {api : Bool} {s : ActiveSpan α ε} {past : List (SpanAct α ε)}
    (h : Traced api s past) (htransparent : Transparent past)
    (hsettled : s.result.isSome ∨ s.Quiet) : s.promises = [s.result] := by
  obtain ⟨called, settled, direct, plain, fulfilled, following, noAdapter⟩ := h
  obtain ⟨caller, execution, promise⟩ := s
  cases caller with
  | starting | awaiting => simp [ActiveSpan.result, ActiveSpan.Quiet] at hsettled
  | fulfilled value =>
    obtain ⟨before, after, hsplit⟩ := List.append_of_mem (fulfilled value rfl)
    have hvalue : SpanAct.settle (.ok value) ∈ past :=
      hsplit ▸ List.mem_append_left _ (htransparent.fulfils before value after hsplit)
    obtain rfl : execution = some (.called (some (.ok value))) := (settled _).mpr hvalue
    cases promise with
    | some _ => simp at direct
    | none => rfl
  | following =>
    cases promise with
    | some _ => simp at direct
    | none =>
      rcases execution with _ | _ | promise
      · simp at following
      · simp [ActiveSpan.result, ActiveSpan.Quiet, Execution.promise] at hsettled
      · rfl
  | direct =>
    -- The adapter failed before it called the callback, so it never calls it.
    have hcall : SpanAct.call ∉ past := by
      rcases plain.mp (direct.mpr rfl) with hapi | hfailed
      · exact noAdapter hapi
      · exact htransparent.fails hfailed
    cases execution with
    | some _ => exact absurd (called.mp rfl) hcall
    | none =>
      cases promise with
      | none => simp at direct
      | some promise => rfl

theorem RunsOnce.transparent {api : Bool} {s : ActiveSpan α ε} {past : List (SpanAct α ε)}
    (hr : (spans api).Reachable (s, past)) (hquiet : s.Quiet) (h : RunsOnce api s past) :
    Transparent past := by
  obtain ⟨htimely, hfinal⟩ := h
  constructor
  · intro before value after hsplit
    have hinitial : before ++ [.fulfils value] <+: past := ⟨after, by simp [hsplit]⟩
    obtain ⟨s', hr'⟩ := reachable_of_prefix hr hinitial
    obtain ⟨s₀, hr₀, hstep⟩ := last_step hr'
    have htraced := traced hr₀
    simp only [ActiveSpan.step] at hstep
    split at hstep
    · rename_i hcaller
      simp only [Option.some.injEq] at hstep
      subst hstep
      have hpromises := htimely _ _ hinitial hr' rfl
      have hplain : s₀.plain = none := by
        simpa [hcaller] using htraced.direct
      apply (htraced.settled (.ok value)).mp
      obtain ⟨caller, execution, promise⟩ := s₀
      rcases execution with _ | _ | promise <;>
        simp_all [ActiveSpan.promises, ActiveSpan.result, Execution.promises]
    · cases hstep
  · intro hfailed hcall
    have htraced := traced hr
    have hplain := htraced.plain.mpr (.inr hfailed)
    have hcalled := htraced.called.mpr hcall
    obtain ⟨caller, execution, promise⟩ := s
    -- Two calls of `fn` have two promises.
    rcases execution with _ | _ | promise'
    · cases hcalled
    · cases caller <;> exact hquiet
    · cases promise with
      | none => cases hplain
      | some promise => simp [ActiveSpan.promises, Execution.promises] at hfinal

section
variable {σ β ω : Type} {serve : (r : Request) → ω → r.Reply → ω → Prop} {fn : Code σ β}
  {s s' : σ} {w w' : ω} {r : Except Thrown β}

private theorem callSpan_ok {call : SpanCall} {b : Except Thrown Unit}
    (h : (callSpan call : Code σ Unit).Runs serve s w b s' w') : b = .ok () := by
  unfold callSpan Routine.tryCatch at h
  obtain ⟨a, _, _, -, hcaught⟩ := Routine.runs_andThen.mp h
  cases a <;> cases hcaught <;> rfl

/-- The routine ends as `fn` does, and so does the promise beside any transparent adapter. -/
theorem result_of_withActiveSpan (hruns : (withActiveSpan fn).Runs serve s w r s' w') :
    ∃ s₁ w₁, fn.Runs serve s w r s₁ w₁ ∧ ∀ (api : Bool) (span : ActiveSpan β Thrown) past,
      (spans api).Reachable (span, past) → span.Quiet → Transparent past →
        span.promises = [some r] → span.result = some r := by
  unfold withActiveSpan Routine.tryFinally at hruns
  obtain ⟨a, s₁, w₁, hfn, hend⟩ := Routine.runs_andThen.mp hruns
  obtain ⟨b, s₂, w₂, hspan, hlast⟩ := Routine.runs_andThen.mp hend
  obtain rfl := callSpan_ok hspan
  cases hlast
  refine ⟨s₁, w₁, hfn, ?_⟩
  intro api span past hr hquiet htransparent hpromises
  have hsame := (traced hr).promises_eq htransparent (.inr hquiet)
  exact (List.singleton_inj.mp (hpromises.symm.trans hsame)).symm

end

/--
`fn` runs exactly once and `withActiveSpan` settles as it does if and only if the adapter
is transparent. Then `executeTask` rethrows the signal that its body returned, and
acknowledges no job whose body did not end without one.
-/
theorem span_exact_iff {api : Bool} {s : ActiveSpan α ε} {past : List (SpanAct α ε)}
    (hr : (spans api).Reachable (s, past)) (hquiet : s.Quiet) :
    (RunsOnce api s past ↔ Transparent past) ∧
    (Transparent past → ∀ suspended : α → Option ε,
      (∀ value signal, s.promises = [some (.ok value)] → suspended value = some signal →
        s.outcome suspended = some (.error signal)) ∧
      (s.outcome suspended = some (.ok ()) →
        ∃ value, s.promises = [some (.ok value)] ∧ suspended value = none)) := by
  constructor
  · constructor
    · exact RunsOnce.transparent hr hquiet
    · intro h
      refine ⟨?_, (traced hr).promises_eq h (.inr hquiet)⟩
      intro s' before hinitial hr' hsettled
      exact (traced hr').promises_eq (h.of_prefix hinitial) (.inl hsettled)
  · intro h suspended
    have hpromises := (traced hr).promises_eq h (.inr hquiet)
    constructor
    · intro value signal hvalue hsignal
      have hresult : s.result = some (.ok value) := by simpa [hpromises] using hvalue
      simp [ActiveSpan.outcome, hresult, hsignal, Except.bind]
    · intro houtcome
      cases hresult : s.result with
      | none => simp [ActiveSpan.outcome, hresult] at houtcome
      | some result =>
        cases result with
        | error e => simp [ActiveSpan.outcome, hresult, Except.bind] at houtcome
        | ok value =>
          refine ⟨value, by rw [hpromises, hresult], ?_⟩
          cases hsignal : suspended value with
          | none => rfl
          | some signal => simp [ActiveSpan.outcome, hresult, hsignal, Except.bind] at houtcome

namespace SpanTrace

abbrev Act := SpanAct (Option String) String

/-- A parent's body returns its signal through a faithful adapter. -/
def kept : List Act :=
  [.call, .returns, .run, .settle (.ok (some "suspended"))] ++ [.fulfils (some "suspended")]

/-- The same body, and an adapter that resolves with nothing. -/
def lost : List Act :=
  [.call, .returns, .run, .settle (.ok (some "suspended")), .fulfils none]

/-- The adapter fails, and calls its callback afterwards. -/
def calledLate : List Act :=
  [.throws, .settlePlain (.ok none), .call, .run, .settle (.ok none)]

private theorem reached {acts : List Act} {s : ActiveSpan (Option String) String}
    (h : (spans true).run (.initial true, []) acts = some (s, acts)) :
    (spans true).Reachable (s, acts) :=
  TransitionSystem.reachableWith_of_runWith (fun _ _ _ => trivial) acts (.init ⟨rfl, rfl⟩) h

end SpanTrace

theorem span_exact_iff_kept :
    ∃ s, RunsOnce true s SpanTrace.kept ∧ s.outcome id = some (.error "suspended") := by
  have htransparent : Transparent SpanTrace.kept := by
    constructor
    · intro before value after hsplit
      rcases snoc_eq_split hsplit with ⟨rfl, hvalue⟩ | ⟨after', hsplit⟩
      · simp_all
      · have hmem : SpanAct.fulfils value ∈ before ++ .fulfils value :: after' := by simp
        simp [← hsplit] at hmem
    · rintro ⟨before, act, after, hsplit, hfails, -⟩
      have hmem : act ∈ SpanTrace.kept := by simp [hsplit]
      clear hsplit
      cases act <;> simp_all [SpanTrace.kept, SpanAct.Fails]
  have hreach : (spans true).Reachable (_, SpanTrace.kept) := SpanTrace.reached rfl
  obtain ⟨hiff, hsignal⟩ := span_exact_iff hreach trivial
  exact ⟨_, hiff.mpr htransparent, (hsignal htransparent id).1 _ _ rfl rfl⟩

/-- A suspended parent is acknowledged, and a handler runs twice. -/
theorem span_not_exact :
    (∃ s, (spans true).Reachable (s, SpanTrace.lost) ∧ s.Quiet ∧
      ¬RunsOnce true s SpanTrace.lost ∧ s.promises = [some (.ok (some "suspended"))] ∧
      s.outcome id = some (.ok ())) ∧
    ∃ s, (spans true).Reachable (s, SpanTrace.calledLate) ∧ s.Quiet ∧
      ¬RunsOnce true s SpanTrace.calledLate ∧ s.promises.length = 2 := by
  constructor
  · refine ⟨_, SpanTrace.reached rfl, trivial, ?_, rfl, rfl⟩
    intro h
    simpa [ActiveSpan.promises, ActiveSpan.result, Execution.promises] using h.2
  · refine ⟨_, SpanTrace.reached rfl, trivial, ?_, rfl⟩
    intro h
    simpa [ActiveSpan.promises, Execution.promises] using h.2

end BetterGraphileWorker
