-- SUMMARY: Ranks of the members of a list by a key: they are distinct and use up every number below the length.
import Mathlib.Data.Finset.Card
import Mathlib.Data.List.Nodup

/-!
# Ranks

The rank of a row is the number of rows with a smaller key. Where no two rows share a
key, a list of `n` rows has each rank below `n` exactly once, however it is ordered.
-/

universe u

namespace List

variable {α : Type u} (key : α → ℕ) {l : List α} {x y : α} {r : ℕ}

/-- The number of rows with a smaller key. -/
def rank (l : List α) (x : α) : ℕ := (l.filter fun y => key y < key x).length

variable {key}

theorem rank_lt (hx : x ∈ l) : l.rank key x < l.length := by
  apply List.length_filter_lt_length_iff_exists.mpr
  exact ⟨x, hx, by simp⟩

private theorem rank_lt_rank (hx : x ∈ l) (hkey : key x < key y) : l.rank key x < l.rank key y := by
  have hsub : (l.filter fun z => key z < key x) = (l.filter fun z => key z < key y).filter fun z => key z < key x := by
    rw [List.filter_filter]
    congr 1
    funext z
    by_cases hz : key z < key x
    · simp [hz, hz.trans hkey]
    · simp [hz]
  unfold rank
  rw [hsub]
  apply List.length_filter_lt_length_iff_exists.mpr
  exact ⟨x, by simp [hx, hkey], by simp⟩

theorem key_eq_of_rank_eq (hx : x ∈ l) (hy : y ∈ l) (hrank : l.rank key x = l.rank key y) :
    key x = key y := by
  rcases Nat.lt_trichotomy (key x) (key y) with hlt | heq | hlt
  · exact absurd hrank (rank_lt_rank hx hlt).ne
  · exact heq
  · exact absurd hrank (rank_lt_rank hy hlt).ne'

/-- Every rank is taken. -/
theorem exists_rank (hkeys : (l.map key).Nodup) (hr : r < l.length) : ∃ x ∈ l, l.rank key x = r := by
  have hranks : (l.map (l.rank key)).Nodup := by
    apply List.Nodup.map_on
    · intro x hx y hy hrank
      exact List.inj_on_of_nodup_map hkeys hx hy (key_eq_of_rank_eq hx hy hrank)
    · exact hkeys.of_map
  have hsubset : (l.map (l.rank key)).toFinset ⊆ Finset.range l.length := by
    intro n hn
    simp only [List.mem_toFinset, List.mem_map] at hn
    obtain ⟨x, hx, rfl⟩ := hn
    exact Finset.mem_range.mpr (rank_lt hx)
  have hall : (l.map (l.rank key)).toFinset = Finset.range l.length := by
    apply Finset.eq_of_subset_of_card_le hsubset
    rw [Finset.card_range, List.toFinset_card_of_nodup hranks, List.length_map]
  have hmem : r ∈ (l.map (l.rank key)).toFinset := hall ▸ Finset.mem_range.mpr hr
  simpa using hmem

end List
