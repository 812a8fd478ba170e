-- SUMMARY: Which of several concurrent sets the progress of a run keeps: the one whose parser settles last.
import BetterGraphileWorker.Data.Payload
import BetterGraphileWorker.Worker.ProgressRunner

/-!
# The order of progress values

`set` awaits the parser of the queue's `progressSchema` before it stores its value. Sets
that were called without awaiting store their values in the order in which their parsers
settle.
-/

namespace BetterGraphileWorker.ProgressRunner

def Event.isSet : Event → Bool
  | .set .. => true
  | _ => false

/-- The values with which parsers settled, in that order. -/
def settlements (events : List Event) : List Accepted :=
  events.filterMap fun
    | .parsed call (some value) _ => some ⟨call, value⟩
    | _ => none

/-- The progress in the row after the last write that succeeded. -/
def State.row (s : State) : Option Json := s.written.head?.bind (·.value)

/-- Whatever follows, other than another `set`: `get()` returns the value, a write of the latest
value leaves it in the row, and a continuation starts from it. -/
def Keeps (s : State) (value : Json) : Prop :=
  ∀ s', (system true).Leads (fun _ e => e.isSet = false) s s' →
    s'.value = some value ∧
    (s'.Saved s'.accepted.length → s'.row = some value) ∧
    ∀ payload traceparent, payload.isObject = true →
      (Payload.continueEnvelope payload s'.value traceparent).get? "progress" = some value

section
variable {s s' s₀ s₁ : State} {e : Event} {events sets : List Event} {now : ℤ} {call : ℕ}

/-! ## What a step does to the sets -/

private theorem write_fields (s : State) (now : ℤ) : (s.write now).accepted = s.accepted ∧
    (s.write now).parsing = s.parsing ∧ (s.write now).calls = s.calls ∧
    (s.write now).refused = s.refused := by
  unfold State.write
  split <;> exact ⟨rfl, rfl, rfl, rfl⟩

private theorem accept_fields (s : State) (call : ℕ) (value : Json) (now : ℤ) :
    (s.accept call value now).accepted = s.accepted ++ [⟨call, value⟩] ∧
    (s.accept call value now).parsing = s.parsing ∧ (s.accept call value now).calls = s.calls ∧
    (s.accept call value now).refused = s.refused := by
  unfold State.accept
  dsimp only
  split
  · exact ⟨rfl, rfl, rfl, rfl⟩
  · split
    · exact write_fields _ now
    · exact ⟨rfl, rfl, rfl, rfl⟩

/-- A call of `set` with a schema waits for its parser, unless it is rejected. -/
private theorem set_fields (s : State) (result : Option Json) (now : ℤ) :
    s.refused.length < (s.set true result now).refused.length ∨
    (s.set true result now).refused = s.refused ∧
      (s.set true result now).accepted = s.accepted ∧
      (s.set true result now).parsing = s.parsing ++ [s.calls] ∧
      (s.set true result now).calls = s.calls + 1 := by
  unfold State.set State.refuse
  dsimp only
  split
  · left; simp
  · split
    · left; simp
    · right
      exact ⟨rfl, rfl, rfl, rfl⟩

private theorem parsed_fields (s : State) (call : ℕ) (result : Option Json) (now : ℤ) :
    s.refused.length < (s.parsed call result now).refused.length ∨
    ∃ value, result = some value ∧ (s.parsed call result now).refused = s.refused ∧
      (s.parsed call result now).accepted = s.accepted ++ [⟨call, value⟩] ∧
      (s.parsed call result now).parsing = s.parsing := by
  unfold State.parsed State.refuse
  cases result with
  | none => left; simp
  | some value =>
    dsimp only
    split
    · left; simp
    · right
      obtain ⟨haccepted, hparsing, _, hrefused⟩ := accept_fields s call value now
      exact ⟨value, rfl, hrefused, haccepted, hparsing⟩

/-- Of the sets, the other steps change nothing. -/
private theorem step_kept (h : step true s e = some s') (hset : e.isSet = false)
    (hparsed : ∀ call result now, e ≠ .parsed call result now) :
    s'.accepted = s.accepted ∧ s'.parsing = s.parsing ∧ s'.refused = s.refused := by
  cases e with
  | set result now => cases hset
  | parsed call result now => exact absurd rfl (hparsed call result now)
  | flush now =>
    cases h
    unfold State.flush
    split
    · exact ⟨rfl, rfl, rfl⟩
    · obtain ⟨haccepted, hparsing, _, hrefused⟩ := write_fields s now
      exact ⟨haccepted, hparsing, hrefused⟩
  | close persist now =>
    cases h
    unfold State.close
    dsimp only
    split
    · obtain ⟨haccepted, hparsing, _, hrefused⟩ :=
        write_fields { s with closed := true } now
      exact ⟨haccepted, hparsing, hrefused⟩
    · exact ⟨rfl, rfl, rfl⟩
  | fire now =>
    have h := (Option.ite_none_right_eq_some.mp h).2
    cases h
    obtain ⟨haccepted, hparsing, _, hrefused⟩ := write_fields s now
    exact ⟨haccepted, hparsing, hrefused⟩
  | startWrite =>
    replace h : s.startWrite = some s' := h
    unfold State.startWrite at h
    split at h
    · split at h <;> cases h <;> exact ⟨rfl, rfl, rfl⟩
    · cases h
  | land success =>
    replace h : s.land success = some s' := h
    unfold State.land at h
    split at h
    · cases h
    · cases success <;> cases h <;> exact ⟨rfl, rfl, rfl⟩
  | resume i =>
    replace h : s.resume i = some s' := h
    unfold State.resume at h
    split at h
    · split at h
      · split at h
        · cases h
          exact ⟨rfl, rfl, rfl⟩
        · split at h <;> cases h <;> exact ⟨rfl, rfl, rfl⟩
      · cases h
    · cases h

/-- A step other than a call of `set` rejects a set, or stores what a parser settled with. -/
private theorem step_event (h : step true s e = some s') (hset : e.isSet = false) :
    s.refused.length < s'.refused.length ∨
    s'.refused = s.refused ∧ s'.accepted = s.accepted ++ settlements [e] ∧
      ∀ call ∈ s.parsing, call ∈ s'.parsing ∨ ∃ value, ⟨call, value⟩ ∈ settlements [e] := by
  by_cases hparsed : ∃ call result now, e = .parsed call result now
  · obtain ⟨call, result, now, rfl⟩ := hparsed
    obtain ⟨hcall, h⟩ := Option.ite_none_right_eq_some.mp h
    cases h
    cases parsed_fields { s with parsing := s.parsing.erase call } call result now with
    | inl h => exact .inl h
    | inr h =>
      right
      obtain ⟨value, rfl, hrefused, haccepted, hparsing⟩ := h
      refine ⟨hrefused, haccepted, fun other hother => ?_⟩
      rw [hparsing]
      by_cases heq : other = call
      · right
        rw [heq]
        exact ⟨value, List.mem_singleton.mpr rfl⟩
      · left
        exact (List.mem_erase_of_ne heq).mpr hother
  · right
    simp only [not_exists] at hparsed
    obtain ⟨haccepted, hparsing, hrefused⟩ := step_kept h hset hparsed
    have hnone : settlements [e] = [] := by
      cases e with
      | parsed call result now => exact absurd rfl (hparsed call result now)
      | _ => rfl
    rw [hnone, List.append_nil, hparsing]
    exact ⟨hrefused, haccepted, fun call hcall => .inl hcall⟩

private theorem run_cons {e : Event} (h : (system true).run s (e :: events) = some s') :
    ∃ s₁, step true s e = some s₁ ∧ (system true).run s₁ events = some s' := by
  simp only [TransitionSystem.run, TransitionSystem.runWith, if_true] at h
  exact Option.bind_eq_some_iff.mp h

private theorem settlements_cons :
    settlements (e :: events) = settlements [e] ++ settlements events := by
  unfold settlements
  rw [← List.filterMap_append]
  rfl

private theorem run_events (hset : ∀ e ∈ events, e.isSet = false)
    (h : (system true).run s events = some s') :
    s.refused.length ≤ s'.refused.length ∧
      (s'.refused.length = s.refused.length → s'.accepted = s.accepted ++ settlements events ∧
        ∀ call ∈ s.parsing, call ∈ s'.parsing ∨ ∃ value, ⟨call, value⟩ ∈ settlements events) := by
  induction events generalizing s with
  | nil =>
    cases h
    exact ⟨Nat.le_refl _, fun _ => ⟨(List.append_nil _).symm, fun call hcall => .inl hcall⟩⟩
  | cons e events ih =>
    obtain ⟨s₁, hstep, hrun⟩ := run_cons h
    obtain ⟨hle, hrest⟩ := ih (fun e he => hset e (List.mem_cons_of_mem _ he)) hrun
    cases step_event hstep (hset e List.mem_cons_self) with
    | inl hlt =>
      exact ⟨by omega, fun hsame => by omega⟩
    | inr hstored =>
      obtain ⟨hrefused, haccepted, hparsing⟩ := hstored
      rw [hrefused] at hle hrest
      refine ⟨hle, fun hsame => ?_⟩
      obtain ⟨haccepted', hparsing'⟩ := hrest hsame
      rw [settlements_cons]
      refine ⟨by rw [haccepted', haccepted, List.append_assoc], fun call hcall => ?_⟩
      cases hparsing call hcall with
      | inl hpending =>
        cases hparsing' call hpending with
        | inl hpending => exact .inl hpending
        | inr hsettled =>
          obtain ⟨value, hvalue⟩ := hsettled
          exact .inr ⟨value, List.mem_append_right _ hvalue⟩
      | inr hsettled =>
        obtain ⟨value, hvalue⟩ := hsettled
        exact .inr ⟨value, List.mem_append_left _ hvalue⟩

/-- The calls of `set` wait for their parsers in the order of the calls. -/
private theorem run_sets (hset : ∀ e ∈ sets, e.isSet = true)
    (h : (system true).run s sets = some s') :
    s.refused.length ≤ s'.refused.length ∧
      (s'.refused.length = s.refused.length → s'.accepted = s.accepted ∧
        (∀ call ∈ s.parsing, call ∈ s'.parsing) ∧
        ∀ k, k < sets.length → s.calls + k ∈ s'.parsing) := by
  induction sets generalizing s with
  | nil =>
    cases h
    exact ⟨Nat.le_refl _, fun _ => ⟨rfl, fun _ hcall => hcall, nofun⟩⟩
  | cons e sets ih =>
    obtain ⟨s₁, hstep, hrun⟩ := run_cons h
    obtain ⟨hle, hrest⟩ := ih (fun e he => hset e (List.mem_cons_of_mem _ he)) hrun
    cases e with
    | set result now =>
      cases hstep
      cases set_fields s result now with
      | inl hlt =>
        exact ⟨by omega, fun hsame => by omega⟩
      | inr hwaits =>
        obtain ⟨hrefused, haccepted, hparsing, hcalls⟩ := hwaits
        rw [hrefused] at hle hrest
        refine ⟨hle, fun hsame => ?_⟩
        obtain ⟨haccepted', hkept, hnew⟩ := hrest hsame
        rw [hparsing] at hkept
        refine ⟨haccepted'.trans haccepted, fun call hcall => ?_, fun k hk => ?_⟩
        · exact hkept call (List.mem_append_left _ hcall)
        · cases k with
          | zero => exact hkept s.calls (by simp)
          | succ k =>
            have hcall := hnew k (Nat.lt_of_succ_lt_succ hk)
            rw [hcalls] at hcall
            rwa [Nat.add_assoc, Nat.add_comm 1] at hcall
    | _ => cases hset _ List.mem_cons_self

/-! ## After the sets -/

/-- Without another set, no value is accepted any more. -/
private theorem leads_kept (hidle : s.parsing = [])
    (h : (system true).Leads (fun _ e => e.isSet = false) s s') :
    s'.accepted = s.accepted ∧ s'.parsing = [] := by
  induction h with
  | refl => exact ⟨rfl, hidle⟩
  | @step s₁ s₂ e _ hset hstep ih =>
    obtain ⟨haccepted, hparsing⟩ := ih
    obtain ⟨haccepted', hparsing', _⟩ := step_kept hstep hset fun call result now he => by
      rw [he] at hstep
      have hcall := (Option.ite_none_right_eq_some.mp hstep).1
      rw [hparsing] at hcall
      cases hcall
    exact ⟨haccepted'.trans haccepted, hparsing'.trans hparsing⟩

private theorem leads_reachable {cond : State → Event → Prop} (h : (system true).Leads cond s s') :
    (system true).Leads (fun _ _ => True) s s' := by
  induction h with
  | refl => exact .refl
  | step _ _ hstep ih => exact .step ih trivial hstep

/-- A write of the latest value leaves it in the row. -/
private theorem row_of_saved {a : Accepted} (hc : Chain s) (hlast : s.accepted.getLast? = some a)
    (hsaved : s.Saved s.accepted.length) : s.row = some a.value := by
  have hne : s.accepted ≠ [] := by
    intro h
    rw [h] at hlast
    cases hlast
  obtain ⟨w, hw, hle⟩ := hsaved.resolve_left fun h => hne (List.length_eq_zero_iff.mp h)
  unfold State.row
  cases hwritten : s.written with
  | nil =>
    rw [hwritten] at hw
    cases hw
  | cons newest rest =>
    have hlogged := hc.logged newest (by simp [hwritten])
    have hnewest : w.version ≤ newest.version := by
      rw [hwritten] at hw
      cases List.mem_cons.mp hw with
      | inl h => exact Nat.le_of_eq (congrArg Write.version h)
      | inr h =>
        have hsorted := (List.pairwise_append.mp hc.newest).2.1
        rw [hwritten] at hsorted
        exact (List.pairwise_cons.mp hsorted).1 w h
    obtain ⟨b, hb, _, hvalue⟩ := hc.log newest hlogged
    have hversion : newest.version = s.accepted.length :=
      Nat.le_antisymm (hc.version_le hlogged) (Nat.le_trans hle hnewest)
    rw [hversion, ← List.getLast?_eq_getElem?, hlast] at hb
    cases hb
    exact hvalue

/-- The run keeps the value with which the last parser settles. -/
private theorem keeps_iff {a : Accepted} {value : Json} (hc : (system true).Reachable s)
    (hidle : s.parsing = []) (hlast : s.accepted.getLast? = some a) :
    Keeps s value ↔ a.value = value := by
  constructor
  · intro hkeeps
    have hvalue := (hkeeps s .refl).1
    rw [(chain_of_reachable hc).value a hlast] at hvalue
    exact Option.some.inj hvalue
  · intro heq s' hleads
    have hreach : (system true).Reachable s' :=
      TransitionSystem.Leads.reachableWith (leads_reachable hleads) hc
    obtain ⟨haccepted, _⟩ := leads_kept hidle hleads
    rw [← haccepted] at hlast
    have hchain := chain_of_reachable hreach
    have hvalue : s'.value = some value := by rw [hchain.value a hlast, heq]
    refine ⟨hvalue, fun hsaved => ?_, fun payload traceparent hobj => ?_⟩
    · rw [row_of_saved hchain hlast hsaved, heq]
    · rw [hvalue]
      unfold Payload.continueEnvelope
      cases traceparent <;> simp [Json.get?_set, hobj]

/-- After sets that were called without awaiting, the progress is the value of the one called
last if and only if its parser settles last, or the parser that does yields the same value. -/
theorem last_set_kept_iff (sets events : List Event) (hreach : (system true).Reachable s₀)
    (hsets : ∀ e ∈ sets, e.isSet = true) (hsome : sets ≠ [])
    (hcalled : (system true).run s₀ sets = some s₁)
    (hevents : ∀ e ∈ events, e.isSet = false) (hrun : (system true).run s₁ events = some s)
    (hsettled : s.parsing = []) (haccepted : s.refused = s₀.refused) :
    (∃ value, ⟨s₀.calls + sets.length - 1, value⟩ ∈ settlements events) ∧
      ∀ value, ⟨s₀.calls + sets.length - 1, value⟩ ∈ settlements events →
        (Keeps s value ↔ (settlements events).getLast?.map (·.value) = some value) := by
  have hsame := congrArg List.length haccepted
  obtain ⟨hle, hwaiting⟩ := run_sets hsets hcalled
  obtain ⟨hle', hstored⟩ := run_events hevents hrun
  obtain ⟨_, _, hcalls⟩ := hwaiting (by omega)
  obtain ⟨hvalues, hsettles⟩ := hstored (by omega)
  have hreach₁ : (system true).Reachable s₁ :=
    TransitionSystem.reachableWith_of_runWith (fun _ _ _ => trivial) sets hreach hcalled
  have hreach' : (system true).Reachable s :=
    TransitionSystem.reachableWith_of_runWith (fun _ _ _ => trivial) events hreach₁ hrun
  have hpos := List.length_pos_iff.mpr hsome
  constructor
  · have hcall := hcalls (sets.length - 1) (by omega)
    rw [← Nat.add_sub_assoc hpos] at hcall
    cases hsettles _ hcall with
    | inl hpending =>
      rw [hsettled] at hpending
      cases hpending
    | inr hvalue => exact hvalue
  · intro value hvalue
    cases hlast : (settlements events).getLast? with
    | none =>
      rw [List.getLast?_eq_none_iff.mp hlast] at hvalue
      cases hvalue
    | some a =>
      have hlatest : s.accepted.getLast? = some a := by
        rw [hvalues, List.getLast?_append, hlast]
        rfl
      rw [Option.map_some, Option.some.injEq]
      exact keeps_iff hreach' hsettled hlatest

end

namespace ProgressTrace

/-- `ctx.progress.set(1); ctx.progress.set(2)`. -/
def sets : List Event := [.set none 0, .set none 0]

/-- The parsers settle in the order of the calls. -/
def inTurn : List Event := [.parsed 0 (some (.num 1)) 1, .parsed 1 (some (.num 2)) 2]

/-- The parser of the second call settles first. -/
def overtaken : List Event := [.parsed 1 (some (.num 2)) 1, .parsed 0 (some (.num 1)) 2]

end ProgressTrace

private theorem sets_initial : (system true).Reachable (.start none) := .init ⟨none, rfl⟩

theorem last_set_kept_in_turn :
    ∃ s₁ s, (system true).run (.start none) ProgressTrace.sets = some s₁ ∧
      (system true).run s₁ ProgressTrace.inTurn = some s ∧ Keeps s (.num 2) := by
  refine ⟨_, _, rfl, rfl, ?_⟩
  have hiff := last_set_kept_iff ProgressTrace.sets ProgressTrace.inTurn sets_initial
    (by decide) nofun rfl (by decide) rfl rfl rfl
  exact (hiff.2 (.num 2) (.tail _ (.head _))).mpr rfl

/-- The progress is the value of the set that was called first. -/
theorem last_set_overtaken :
    ¬∀ (s₀ s₁ s : State) (sets events : List Event), (system true).Reachable s₀ →
      (∀ e ∈ sets, e.isSet = true) → sets ≠ [] → (system true).run s₀ sets = some s₁ →
      (∀ e ∈ events, e.isSet = false) → (system true).run s₁ events = some s →
      s.parsing = [] → s.refused = s₀.refused →
      ∀ value, ⟨s₀.calls + sets.length - 1, value⟩ ∈ settlements events → Keeps s value := by
  intro hclaim
  have hkeeps := hclaim (.start none) _ _ ProgressTrace.sets ProgressTrace.overtaken sets_initial
    (by decide) nofun rfl (by decide) rfl rfl rfl (.num 2) (.head _)
  cases (hkeeps _ .refl).1

end BetterGraphileWorker.ProgressRunner
