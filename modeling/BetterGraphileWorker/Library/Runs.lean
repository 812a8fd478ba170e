-- SUMMARY: Transition systems with an executable step: runs, reachable states, invariants, and runs whose steps all meet a condition.
import Mathlib.Logic.Basic

/-!
# Runs of transition systems

A system is a predicate on initial states and a guarded step function:
`step s a = some s'` when the action `a` is enabled in `s`. The same definition
serves proofs (`ReachableWith`, `invariant`) and concrete traces (`runWith`).
-/

/-- A transition system over states `σ` and actions `α`. -/
structure TransitionSystem (σ α : Type*) where
  Init : σ → Prop
  step : σ → α → Option σ

namespace TransitionSystem

variable {σ α : Type*} {S : TransitionSystem σ α}

/-- The states of the runs in which every step meets `cond` in the state it starts from. -/
inductive ReachableWith (S : TransitionSystem σ α) (cond : σ → α → Prop) : σ → Prop where
  | init {s : σ} (h : S.Init s) : ReachableWith S cond s
  | step {s s' : σ} {a : α} (h : ReachableWith S cond s) (hc : cond s a)
      (hs : S.step s a = some s') : ReachableWith S cond s'

/-- The states of all runs. -/
abbrev Reachable (S : TransitionSystem σ α) : σ → Prop :=
  S.ReachableWith fun _ _ => True

variable {cond cond' : σ → α → Prop} {s s' : σ}

/-- An invariant may use that the state it steps from is reachable. -/
theorem ReachableWith.invariant {I : σ → Prop} (hinit : ∀ s, S.Init s → I s)
    (hstep : ∀ s a s', S.ReachableWith cond s → I s → cond s a → S.step s a = some s' → I s')
    (h : S.ReachableWith cond s) : I s := by
  induction h with
  | init h => exact hinit _ h
  | step hr hc hs ih => exact hstep _ _ _ hr ih hc hs

theorem ReachableWith.mono (hcc : ∀ s a, cond s a → cond' s a)
    (h : S.ReachableWith cond s) : S.ReachableWith cond' s := by
  induction h with
  | init h => exact .init h
  | step _ hc hs ih => exact .step ih (hcc _ _ hc) hs

theorem ReachableWith.reachable (h : S.ReachableWith cond s) : S.Reachable s :=
  h.mono fun _ _ _ => trivial

/-! ## From one state to a later one -/

/-- The steps of a run lead from `s` to the states after it. -/
inductive Leads (S : TransitionSystem σ α) (cond : σ → α → Prop) (s : σ) : σ → Prop where
  | refl : Leads S cond s s
  | step {s' s'' : σ} {a : α} (h : Leads S cond s s') (hc : cond s' a)
      (hs : S.step s' a = some s'') : Leads S cond s s''

theorem Leads.reachableWith (h : S.Leads cond s s') (hr : S.ReachableWith cond s) :
    S.ReachableWith cond s' := by
  induction h with
  | refl => exact hr
  | step _ hc hs ih => exact .step ih hc hs

theorem Leads.trans {s'' : σ} (h : S.Leads cond s s') (h' : S.Leads cond s' s'') :
    S.Leads cond s s'' := by
  induction h' with
  | refl => exact h
  | step _ hc hs ih => exact .step ih hc hs

/-- What every step relates in order, a run relates. -/
theorem Leads.relates {R : σ → σ → Prop} (hrefl : ∀ s, R s s)
    (htrans : ∀ s s' s'', R s s' → R s' s'' → R s s'')
    (hstep : ∀ s a s', S.ReachableWith cond s → cond s a → S.step s a = some s' → R s s')
    (hr : S.ReachableWith cond s) (h : S.Leads cond s s') : R s s' := by
  induction h with
  | refl => exact hrefl s
  | step h hc hs ih => exact htrans _ _ _ ih (hstep _ _ _ (h.reachableWith hr) hc hs)

/-! ## Histories -/

/-- The system with a history: `note` extends it after every step and never constrains one. -/
def observe {η : Type*} (S : TransitionSystem σ α) (start : η) (note : σ → α → σ → η → η) :
    TransitionSystem (σ × η) α where
  Init p := S.Init p.1 ∧ p.2 = start
  step p a := (S.step p.1 a).map fun s' => (s', note p.1 a s' p.2)

section
variable {η : Type*} {start : η} {note : σ → α → σ → η → η}

theorem observe_step_iff {p p' : σ × η} {a : α} : (S.observe start note).step p a = some p' ↔
    S.step p.1 a = some p'.1 ∧ p'.2 = note p.1 a p'.1 p.2 := by
  obtain ⟨s', h'⟩ := p'
  simp only [observe, Option.map_eq_some_iff, Prod.mk.injEq]
  constructor
  · rintro ⟨s'', hs, rfl, rfl⟩
    exact ⟨hs, rfl⟩
  · rintro ⟨hs, rfl⟩
    exact ⟨s', hs, rfl, rfl⟩

/-- A run with a history is a run. -/
theorem ReachableWith.of_observe {condη : σ × η → α → Prop} {p : σ × η}
    (hcond : ∀ p a, condη p a → cond p.1 a)
    (h : (S.observe start note).ReachableWith condη p) : S.ReachableWith cond p.1 := by
  induction h with
  | init h => exact .init h.1
  | step _ hc hs ih => exact .step ih (hcond _ _ hc) (observe_step_iff.mp hs).1

/-- Every run has a history. -/
theorem ReachableWith.exists_observe (start : η) (note : σ → α → σ → η → η)
    (h : S.ReachableWith cond s) :
    ∃ past, (S.observe start note).ReachableWith (fun p a => cond p.1 a) (s, past) := by
  induction h with
  | init h => exact ⟨start, .init ⟨h, rfl⟩⟩
  | @step s s' a _ hc hs ih =>
    obtain ⟨past, hpast⟩ := ih
    exact ⟨note s a s' past, .step hpast hc (observe_step_iff.mpr ⟨hs, rfl⟩)⟩

end

/-! ## Concrete runs -/

/-- Take the steps of `as` in order, each only if it meets `cond`. -/
def runWith (S : TransitionSystem σ α) (cond : σ → α → Bool) : σ → List α → Option σ
  | s, [] => some s
  | s, a :: as => if cond s a then (S.step s a).bind (runWith S cond · as) else none

/-- Take the steps of `as` in order. -/
def run (S : TransitionSystem σ α) : σ → List α → Option σ :=
  S.runWith fun _ _ => true

theorem run_append {as bs : List α} : S.run s (as ++ bs) = (S.run s as).bind (S.run · bs) := by
  induction as generalizing s with
  | nil => rfl
  | cons a as ih =>
    simp only [run, runWith, List.cons_append, if_true] at ih ⊢
    rw [Option.bind_assoc]
    congr 1
    funext s₁
    exact ih

theorem reachableWith_of_runWith {c : σ → α → Bool} (hcond : ∀ s a, c s a = true → cond s a) :
    ∀ (as : List α) {s : σ}, S.ReachableWith cond s → S.runWith c s as = some s' →
      S.ReachableWith cond s'
  | [], s, hs, h => by
      simp only [runWith, Option.some.injEq] at h
      exact h ▸ hs
  | a :: as, s, hs, h => by
      simp only [runWith] at h
      split at h
      · rename_i hc
        cases hstep : S.step s a with
        | none => simp [hstep] at h
        | some s₁ =>
          simp only [hstep, Option.bind_some] at h
          exact reachableWith_of_runWith hcond as (.step hs (hcond s a hc) hstep) h
      · cases h

theorem leads_of_runWith {c : σ → α → Bool} (hcond : ∀ s a, c s a = true → cond s a) :
    ∀ (as : List α) {s₁ : σ}, S.Leads cond s s₁ → S.runWith c s₁ as = some s' → S.Leads cond s s'
  | [], s₁, hs, h => by
      simp only [runWith, Option.some.injEq] at h
      exact h ▸ hs
  | a :: as, s₁, hs, h => by
      simp only [runWith] at h
      split at h
      · rename_i hc
        obtain ⟨s₂, hstep, hrun⟩ := Option.bind_eq_some_iff.mp h
        exact leads_of_runWith hcond as (.step hs (hcond s₁ a hc) hstep) hrun
      · cases h

/-- A trace that ends in a state with the property `p` witnesses a reachable one. -/
theorem exists_reachableWith_of_runWith {c : σ → α → Bool} (as : List α) (p : σ → Bool)
    (hcond : ∀ s a, c s a = true → cond s a) (h₀ : S.Init s)
    (h : (S.runWith c s as).any p = true) :
    ∃ s', S.ReachableWith cond s' ∧ p s' = true := by
  cases hrun : S.runWith c s as with
  | none => simp [hrun] at h
  | some s' =>
    simp only [hrun, Option.any_some] at h
    exact ⟨s', reachableWith_of_runWith hcond as (.init h₀) hrun, h⟩

theorem exists_reachable_of_run (as : List α) (p : σ → Bool) (h₀ : S.Init s)
    (h : (S.run s as).any p = true) : ∃ s', S.Reachable s' ∧ p s' = true :=
  exists_reachableWith_of_runWith as p (fun _ _ _ => trivial) h₀ h

end TransitionSystem
