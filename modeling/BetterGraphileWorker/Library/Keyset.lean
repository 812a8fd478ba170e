-- SUMMARY: Pages of a changing collection, each below the last key of the one before: strictly descending, and complete for what stays.
import Mathlib.Data.List.Sort

/-!
# Keyset pages

A page holds the first items below a bound, in descending order of their keys, and its
last key is the bound of the next page. The items may change between the pages. What is
listed is strictly descending, and an item that is there all the time is listed or still
below the bound, so it has been listed once a page is empty.
-/

namespace Keyset

variable {α κ : Type*} [LinearOrder κ]

def Below (bound : Option κ) (k : κ) : Prop := ∀ b ∈ bound, k < b

instance (bound : Option κ) (k : κ) : Decidable (Below bound k) :=
  match bound with
  | none => .isTrue nofun
  | some b => decidable_of_iff (k < b) (by simp [Below])

/-- The first `limit` items below the bound. -/
def page (key : α → κ) (limit : ℕ) (bound : Option κ) (items : List α) : List α :=
  ((items.filter fun a => Below bound (key a)).insertionSort fun a b => key b ≤ key a).take limit

/-- Listed are the keys, in descending order and down to the bound, of all items that stay. -/
structure Listed (stays : κ → Prop) (listed : List κ) (bound : Option κ) : Prop where
  bound_eq : listed.getLast? = bound
  descending : listed.Pairwise fun k k' => k' < k
  complete : ∀ k, stays k → k ∈ listed ∨ Below bound k

section
variable {key : α → κ} {limit : ℕ} {bound : Option κ} {items : List α} {a : α}
  {stays stays' : κ → Prop} {listed : List κ}

theorem mem_of_mem_page (h : a ∈ page key limit bound items) : a ∈ items ∧ Below bound (key a) := by
  have hsorted := List.mem_of_mem_take h
  rw [List.mem_insertionSort, List.mem_filter, decide_eq_true_eq] at hsorted
  exact hsorted

/-- Where keys are distinct, the items below the bound are sorted strictly. -/
private theorem pairwise_sorted (hkeys : (items.map key).Nodup) :
    ((items.filter fun a => Below bound (key a)).insertionSort fun a b => key b ≤ key a).Pairwise
      fun a b => key b < key a := by
  have hperm := List.perm_insertionSort (fun a b => key b ≤ key a)
    (items.filter fun a => Below bound (key a))
  have hne : ((items.filter fun a => Below bound (key a)).insertionSort
      fun a b => key b ≤ key a).Pairwise fun a b => key a ≠ key b := by
    have hdistinct : (items.filter fun a => Below bound (key a)).Pairwise
        fun a b => key a ≠ key b :=
      (List.pairwise_map.mp hkeys).filter _
    exact hperm.symm.pairwise hdistinct fun h => h.symm
  have : Std.Total fun a b : α => key b ≤ key a := ⟨fun a b => le_total (key b) (key a)⟩
  have : IsTrans α fun a b => key b ≤ key a := ⟨fun _ _ _ h h' => le_trans h' h⟩
  exact ((List.pairwise_insertionSort (fun a b => key b ≤ key a) _).and hne).imp
    fun h => lt_of_le_of_ne h.1 (Ne.symm h.2)

theorem pairwise_page (hkeys : (items.map key).Nodup) :
    (page key limit bound items).Pairwise fun a b => key b < key a :=
  (pairwise_sorted hkeys).sublist (List.take_sublist _ _)

/-- An item below the bound is on the page, or below all that are there. -/
theorem mem_page_or_lt (limit : ℕ) (hkeys : (items.map key).Nodup) (ha : a ∈ items) (hbelow : Below bound (key a)) :
    a ∈ page key limit bound items ∨
      (page key limit bound items).length = limit ∧ ∀ b ∈ page key limit bound items, key a < key b := by
  have hsorted : ((items.filter fun a => Below bound (key a)).insertionSort
      fun a b => key b ≤ key a).Pairwise fun a b => key b < key a := pairwise_sorted hkeys
  have hmem : a ∈ (items.filter fun a => Below bound (key a)).insertionSort fun a b => key b ≤ key a := by
    rw [List.mem_insertionSort, List.mem_filter, decide_eq_true_eq]
    exact ⟨ha, hbelow⟩
  unfold page
  generalize (items.filter fun a => Below bound (key a)).insertionSort (fun a b => key b ≤ key a) =
    sorted at hsorted hmem
  rw [← List.take_append_drop limit sorted, List.mem_append] at hmem
  cases hmem with
  | inl hfirst => exact .inl hfirst
  | inr hlast =>
    refine .inr ⟨?_, fun b hb => ?_⟩
    · rw [List.length_take, Nat.min_eq_left]
      by_contra hshort
      rw [List.drop_eq_nil_of_le (Nat.le_of_not_le hshort)] at hlast
      cases hlast
    · rw [← List.take_append_drop limit sorted, List.pairwise_append] at hsorted
      exact hsorted.2.2 b hb a hlast

/-! ## One page after the other -/

theorem Listed.start : Listed stays [] none where
  bound_eq := rfl
  descending := .nil
  complete _ _ := .inr nofun

/-- Fewer items stay. -/
theorem Listed.mono (h : Listed stays listed bound) (hstays : ∀ k, stays' k → stays k) :
    Listed stays' listed bound :=
  { h with complete := fun k hk => h.complete k (hstays k hk) }

/-- Nothing listed is below the last key of a descending list. -/
private theorem le_of_getLast? (h : listed.Pairwise fun k k' => k' < k) {k b : κ}
    (hlast : listed.getLast? = some b) (hk : k ∈ listed) : b ≤ k := by
  obtain ⟨before, rfl⟩ := List.getLast?_eq_some_iff.mp hlast
  rw [List.mem_append, List.mem_singleton] at hk
  cases hk with
  | inl hbefore => exact ((List.pairwise_append.mp h).2.2 k hbefore b (List.mem_singleton_self b)).le
  | inr heq => exact heq ▸ le_rfl

theorem Listed.page (h : Listed stays listed bound) (hkeys : (items.map key).Nodup)
    (hitems : ∀ k, stays k → ∃ a ∈ items, key a = k) (hne : page key limit bound items ≠ []) :
    Listed stays (listed ++ (page key limit bound items).map key)
      ((page key limit bound items).getLast?.map key) := by
  have hsorted : ((Keyset.page key limit bound items).map key).Pairwise fun k k' => k' < k :=
    List.pairwise_map.mpr (pairwise_page hkeys)
  have hne' : (Keyset.page key limit bound items).map key ≠ [] := by simpa using hne
  constructor
  · rw [List.getLast?_append_of_ne_nil _ hne', List.getLast?_map]
  · rw [List.pairwise_append]
    refine ⟨h.descending, hsorted, fun k hk k' hk' => ?_⟩
    obtain ⟨a, ha, rfl⟩ := List.mem_map.mp hk'
    -- The page is below the bound, and the bound is not above what was listed before.
    cases hbound : bound with
    | none =>
      have hnil : listed = [] := List.getLast?_eq_none_iff.mp (h.bound_eq.trans hbound)
      rw [hnil] at hk
      cases hk
    | some b =>
      have hlow : key a < b := (mem_of_mem_page ha).2 b hbound
      exact lt_of_lt_of_le hlow (le_of_getLast? h.descending (h.bound_eq.trans hbound) hk)
  · intro k hk
    cases h.complete k hk with
    | inl hlisted => exact .inl (List.mem_append_left _ hlisted)
    | inr hbelow =>
      obtain ⟨a, ha, rfl⟩ := hitems k hk
      rcases mem_page_or_lt limit hkeys ha hbelow with hpage | ⟨-, hlt⟩
      · exact .inl (List.mem_append_right _ (List.mem_map_of_mem hpage))
      · right
        intro b hb
        obtain ⟨last, hlast, rfl⟩ := Option.map_eq_some_iff.mp hb
        exact hlt last (List.mem_of_getLast? hlast)

/-- Once a page is empty, all that stays is listed. -/
theorem Listed.of_page_nil (h : Listed stays listed bound) (hkeys : (items.map key).Nodup)
    (hlimit : 0 < limit) (hitems : ∀ k, stays k → ∃ a ∈ items, key a = k)
    (hnil : Keyset.page key limit bound items = []) {k : κ} (hk : stays k) : k ∈ listed := by
  cases h.complete k hk with
  | inl hlisted => exact hlisted
  | inr hbelow =>
    obtain ⟨a, ha, rfl⟩ := hitems k hk
    rcases mem_page_or_lt limit hkeys ha hbelow with hpage | ⟨hfull, -⟩
    · rw [hnil] at hpage
      cases hpage
    · rw [hnil] at hfull
      exact absurd hfull hlimit.ne

end

end Keyset
