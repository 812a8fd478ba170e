-- SUMMARY: Acyclic relations: which new edges close no cycle, and the sinks that every path of a finite one ends in.
import Mathlib.Data.Set.Card
import Mathlib.Logic.Relation

/-!
# Acyclic relations

A waits-for relation changes edge by edge. Edges that lie on no cycle of the new relation
can be ignored, which covers removed edges, edges to a sink, and edges out of one element
that none of their targets reached before.
-/

open Relation

variable {α : Type*} {r r' : α → α → Prop}

/-- No element reaches itself. -/
def Acyclic (r : α → α → Prop) : Prop := ∀ a, ¬ TransGen r a a

namespace Acyclic

/-- Only the edges that lie on cycles matter. -/
theorem of_cycle_edges (hr : Acyclic r) (h : ∀ a b, r' a b → ReflTransGen r' b a → r a b) :
    Acyclic r' := by
  have hpath : ∀ {a b}, TransGen r' a b → ReflTransGen r' b a → TransGen r a b := by
    intro a b hab
    induction hab using TransGen.head_induction_on with
    | single hab => exact fun hba => .single (h _ _ hab hba)
    | head hac hcb ih =>
      intro hba
      exact .head (h _ _ hac (hcb.to_reflTransGen.trans hba)) (ih (hba.tail hac))
  intro a ha
  exact hr a (hpath ha .refl)

theorem mono (hr : Acyclic r) (h : ∀ a b, r' a b → r a b) : Acyclic r' :=
  hr.of_cycle_edges fun a b hab _ => h a b hab

/-- New edges close no cycle if they end in sinks, or leave `p` for what did not reach `p`. -/
theorem of_new_edges (hr : Acyclic r) (p : α)
    (h : ∀ a b, r' a b → r a b ∨ a = p ∧ ¬ ReflTransGen r b p ∨ ∀ c, ¬ r' b c) : Acyclic r' := by
  apply hr.of_cycle_edges
  intro a b hab hba
  rcases h a b hab with hold | ⟨rfl, hnot⟩ | hsink
  · exact hold
  · -- The first arrival at `a` uses old edges only.
    have hpath : ∀ {x}, ReflTransGen r' x a → ReflTransGen r x a := by
      intro x hx
      induction hx using ReflTransGen.head_induction_on with
      | refl => exact .refl
      | head hxy hya ih =>
        rcases h _ _ hxy with hold | ⟨rfl, -⟩ | hsink
        · exact .head hold ih
        · exact .refl
        · cases hya.cases_head with
          | inl hy => exact absurd hab (hy ▸ hsink b)
          | inr hz => exact absurd hz.choose_spec.1 (hsink _)
    exact absurd (hpath hba) hnot
  · cases hba.cases_head with
    | inl heq => exact absurd hab (heq ▸ hsink b)
    | inr hz => exact absurd hz.choose_spec.1 (hsink _)

/-- In a finite acyclic relation every element reaches a sink. -/
theorem exists_sink (hr : Acyclic r) (hfin : {b | ∃ a, r a b}.Finite) (a : α) :
    ∃ b, ReflTransGen r a b ∧ ∀ c, ¬ r b c := by
  have hreach : ∀ a, {b | TransGen r a b}.Finite := by
    intro a
    apply hfin.subset
    intro b hb
    obtain ⟨c, -, hcb⟩ := TransGen.tail'_iff.mp hb
    exact ⟨c, hcb⟩
  induction hn : {b | TransGen r a b}.ncard using Nat.strong_induction_on generalizing a with
  | _ n ih =>
    cases Classical.em (∃ b, r a b) with
    | inr hsink => exact ⟨a, .refl, fun c hc => hsink ⟨c, hc⟩⟩
    | inl hedge =>
      obtain ⟨b, hab⟩ := hedge
      have hlt : {c | TransGen r b c}.ncard < n := by
        rw [← hn]
        apply Set.ncard_lt_ncard _ (hreach a)
        refine ⟨fun c hc => .head hab hc, fun hsub => ?_⟩
        exact hr b (hsub (.single hab))
      obtain ⟨c, hbc, hsink⟩ := ih _ hlt b rfl
      exact ⟨c, .head hab hbc, hsink⟩

/-- A path visits some elements, each of which leads to the next or to the end. -/
private theorem exists_path {a b : α} (h : TransGen r a b) :
    ∃ l : List α, a ∈ l ∧ ∀ x ∈ l, ∃ y, r x y ∧ (y ∈ l ∨ y = b) := by
  induction h using TransGen.head_induction_on with
  | @single a hab =>
    refine ⟨[a], List.mem_singleton_self a, fun x hx => ?_⟩
    rw [List.mem_singleton.mp hx]
    exact ⟨b, hab, .inr rfl⟩
  | @head a c hac _ ih =>
    obtain ⟨l, hc, hl⟩ := ih
    refine ⟨a :: l, List.mem_cons_self, fun x hx => ?_⟩
    rcases List.mem_cons.mp hx with rfl | hx
    · exact ⟨c, hac, .inl (List.mem_cons_of_mem _ hc)⟩
    · obtain ⟨y, hxy, hy⟩ := hl x hx
      exact ⟨y, hxy, hy.imp_left (List.mem_cons_of_mem _)⟩

/-- A relation has a cycle if and only if some elements all have successors among themselves. -/
theorem not_iff_exists_list : ¬Acyclic r ↔ ∃ l : List α, l ≠ [] ∧ ∀ x ∈ l, ∃ y ∈ l, r x y := by
  constructor
  · intro h
    simp only [Acyclic, not_forall, not_not] at h
    obtain ⟨a, ha⟩ := h
    obtain ⟨l, hmem, hl⟩ := exists_path ha
    refine ⟨l, List.ne_nil_of_mem hmem, fun x hx => ?_⟩
    obtain ⟨y, hxy, hy | rfl⟩ := hl x hx
    · exact ⟨y, hy, hxy⟩
    · exact ⟨y, hmem, hxy⟩
  · rintro ⟨l, hne, hl⟩ hr
    obtain ⟨a, ha⟩ := List.exists_mem_of_ne_nil l hne
    -- Within the list the relation is finite, so some element would have no successor.
    have hwithin : Acyclic fun x y => r x y ∧ y ∈ l := hr.mono fun _ _ h => h.1
    have hfin : {y | ∃ x, r x y ∧ y ∈ l}.Finite :=
      (List.finite_toSet l).subset fun y ⟨_, _, hy⟩ => hy
    obtain ⟨b, hab, hsink⟩ := hwithin.exists_sink hfin a
    have hb : b ∈ l := by
      rcases hab.cases_tail with rfl | ⟨_, _, hstep⟩
      · exact ha
      · exact hstep.2
    obtain ⟨c, hc, hbc⟩ := hl b hb
    exact hsink c ⟨hbc, hc⟩

end Acyclic
