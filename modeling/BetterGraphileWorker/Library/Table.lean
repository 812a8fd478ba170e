-- SUMMARY: Tables with a primary key: lookup, insert, update and delete by predicate, and row counts.
import Mathlib.Data.List.Nodup

/-!
# Tables with a primary key

The rows of a table are key and row pairs in which no key occurs twice. `insert`
writes one row, `modify` is an `UPDATE` of every row and `filter` keeps the rows
a `DELETE` leaves. Statements read a table through `get?`, `any` and `count`.
-/

/-- A finite table; the field `nodup` is its primary key constraint. -/
structure Table (κ ρ : Type*) where
  rows : List (κ × ρ)
  nodup : (rows.map Prod.fst).Nodup

namespace Table

variable {κ ρ : Type*}

def empty : Table κ ρ := ⟨[], List.nodup_nil⟩

instance : EmptyCollection (Table κ ρ) := ⟨empty⟩

/-- Rewrite every row, keeping its key. -/
def modify (t : Table κ ρ) (f : κ → ρ → ρ) : Table κ ρ where
  rows := t.rows.map fun kr => (kr.1, f kr.1 kr.2)
  nodup := by simpa [Function.comp_def] using t.nodup

/-- Keep the rows that satisfy `p`. -/
def filter (t : Table κ ρ) (p : κ → ρ → Bool) : Table κ ρ where
  rows := t.rows.filter fun kr => p kr.1 kr.2
  nodup := t.nodup.sublist (List.filter_sublist.map _)

/-- Whether some row satisfies `p`. -/
def any (t : Table κ ρ) (p : κ → ρ → Bool) : Bool :=
  t.rows.any fun kr => p kr.1 kr.2

/-- How many rows satisfy `p`. -/
def count (t : Table κ ρ) (p : κ → ρ → Bool) : ℕ :=
  t.rows.countP fun kr => p kr.1 kr.2

/-- The keys of the rows that satisfy `p`. -/
def keys (t : Table κ ρ) (p : κ → ρ → Bool) : List κ :=
  (t.rows.filter fun kr => p kr.1 kr.2).map Prod.fst

/-- Some row that satisfies `p`, with its key. -/
def find? (t : Table κ ρ) (p : κ → ρ → Bool) : Option (κ × ρ) :=
  t.rows.find? fun kr => p kr.1 kr.2

variable [DecidableEq κ]

/-- The row with the given key. -/
def get? (t : Table κ ρ) (k : κ) : Option ρ :=
  (t.rows.find? fun kr => kr.1 = k).map Prod.snd

/-- Write one row, replacing a row with the same key. -/
def insert (t : Table κ ρ) (k : κ) (r : ρ) : Table κ ρ where
  rows := (k, r) :: t.rows.filter fun kr => kr.1 ≠ k
  nodup := by
    simp only [List.map_cons, List.nodup_cons]
    refine ⟨by simp, t.nodup.sublist (List.filter_sublist.map _)⟩

def erase (t : Table κ ρ) (k : κ) : Table κ ρ := t.filter fun k' _ => k' ≠ k

/-- Rewrite the row with the given key. -/
def update (t : Table κ ρ) (k : κ) (f : ρ → ρ) : Table κ ρ :=
  t.modify fun k' r => if k' = k then f r else r

/-- Write one row, where it stands or after the others. -/
def put (t : Table κ ρ) (k : κ) (r : ρ) : Table κ ρ :=
  if h : k ∈ t.rows.map Prod.fst then t.update k fun _ => r
  else {
    rows := t.rows ++ [(k, r)]
    nodup := by
      rw [List.map_append, List.nodup_append]
      refine ⟨t.nodup, List.nodup_singleton _, ?_⟩
      rintro k₁ hk₁ k₂ hk₂ rfl
      rw [List.map_singleton, List.mem_singleton] at hk₂
      exact h ((show k₁ = k from hk₂) ▸ hk₁) }

/-- The rows of `t'`, and those of `t` under other keys. -/
def overwrite (t t' : Table κ ρ) : Table κ ρ where
  rows := t'.rows ++ t.rows.filter fun kr => kr.1 ∉ t'.rows.map Prod.fst
  nodup := by
    rw [List.map_append, List.nodup_append]
    refine ⟨t'.nodup, t.nodup.sublist (List.filter_sublist.map _), ?_⟩
    rintro k hk k' hk' rfl
    obtain ⟨kr, hkr, rfl⟩ := List.mem_map.mp hk'
    exact (by simpa using (List.mem_filter.mp hkr).2 : kr.1 ∉ t'.rows.map Prod.fst) hk

variable {t : Table κ ρ} {k k' : κ} {r : ρ} {p q : κ → ρ → Bool}

/-! ## Lookup -/

theorem get?_eq_some_iff : t.get? k = some r ↔ (k, r) ∈ t.rows := by
  obtain ⟨rows, hnd⟩ := t
  simp only [get?]
  induction rows with
  | nil => simp
  | cons kr rows ih =>
    obtain ⟨k₀, r₀⟩ := kr
    simp only [List.map_cons, List.nodup_cons] at hnd
    by_cases hk : k₀ = k
    · subst hk
      have hmem : ∀ r, (k₀, r) ∉ rows := fun r h => hnd.1 (List.mem_map.mpr ⟨_, h, rfl⟩)
      simp [hmem, eq_comm]
    · simpa [List.find?_cons, hk, Ne.symm hk, eq_comm (a := k)] using ih hnd.2

@[simp] theorem get?_empty : (∅ : Table κ ρ).get? k = none := rfl

@[simp] theorem get?_modify (f : κ → ρ → ρ) : (t.modify f).get? k = (t.get? k).map (f k) := by
  simp only [get?, modify, List.find?_map, Function.comp_def]
  cases h : t.rows.find? fun kr => decide (kr.1 = k) with
  | none => rfl
  | some kr =>
    have hk : kr.1 = k := by simpa using List.find?_some h
    simp [hk]

omit [DecidableEq κ] in
theorem modify_congr {f g : κ → ρ → ρ} (h : ∀ kr ∈ t.rows, f kr.1 kr.2 = g kr.1 kr.2) :
    t.modify f = t.modify g := by
  simp only [modify, mk.injEq]
  exact List.map_congr_left fun kr hkr => by rw [h kr hkr]

@[simp] theorem get?_filter : (t.filter p).get? k = (t.get? k).filter (p k) := by
  ext r
  simp only [get?_eq_some_iff, filter, List.mem_filter, Option.filter_eq_some_iff]

theorem get?_insert : (t.insert k r).get? k' = if k' = k then some r else t.get? k' := by
  ext r'
  by_cases hk : k' = k
  · subst hk; simp [get?, insert, eq_comm]
  · simp [get?_eq_some_iff, insert, hk]

@[simp] theorem get?_insert_self : (t.insert k r).get? k = some r := by
  simp [get?_insert]

theorem get?_insert_ne (h : k' ≠ k) : (t.insert k r).get? k' = t.get? k' := by
  simp [get?_insert, h]

theorem get?_erase : (t.erase k).get? k' = if k' = k then none else t.get? k' := by
  by_cases h : k' = k
  · subst h; cases t.get? k' <;> simp [erase]
  · cases hr : t.get? k' <;> simp [erase, h, hr]

theorem get?_insert_eq_some {r' : ρ} : (t.insert k r).get? k' = some r' ↔
    k' = k ∧ r' = r ∨ k' ≠ k ∧ t.get? k' = some r' := by
  rw [get?_insert]
  split
  · rename_i hk
    simp [hk, eq_comm]
  · rename_i hk
    simp [hk]

theorem get?_erase_eq_some : (t.erase k).get? k' = some r ↔ k' ≠ k ∧ t.get? k' = some r := by
  rw [get?_erase]
  split
  · rename_i hk
    simp [hk]
  · rename_i hk
    simp [hk]

theorem get?_update (f : ρ → ρ) :
    (t.update k f).get? k' = if k' = k then (t.get? k').map f else t.get? k' := by
  by_cases h : k' = k <;> simp [update, h]

theorem mem_map_fst : k ∈ t.rows.map Prod.fst ↔ (t.get? k).isSome := by
  rw [List.mem_map, Option.isSome_iff_exists]
  constructor
  · rintro ⟨⟨k', r⟩, hmem, rfl⟩
    exact ⟨r, get?_eq_some_iff.mpr hmem⟩
  · rintro ⟨r, hget⟩
    exact ⟨(k, r), get?_eq_some_iff.mp hget, rfl⟩

theorem get?_put : (t.put k r).get? k' = if k' = k then some r else t.get? k' := by
  unfold put
  split
  · rename_i hmem
    rw [get?_update]
    split
    · rename_i hk
      obtain ⟨r', hget⟩ := Option.isSome_iff_exists.mp (mem_map_fst.mp hmem)
      rw [hk, hget]
      rfl
    · rfl
  · rename_i hnew
    ext r'
    simp only [get?_eq_some_iff, List.mem_append, List.mem_singleton, Prod.mk.injEq]
    split
    · rename_i hk
      subst hk
      have hout : (k', r') ∉ t.rows := fun hmem => hnew (List.mem_map.mpr ⟨_, hmem, rfl⟩)
      simp [hout, eq_comm]
    · rename_i hk
      simp [get?_eq_some_iff, hk]

theorem get?_overwrite {t' : Table κ ρ} : (t.overwrite t').get? k = (t'.get? k).or (t.get? k) := by
  ext r
  cases hget : t'.get? k with
  | some r' =>
    have hmem : (k, r') ∈ t'.rows := get?_eq_some_iff.mp hget
    have hin : k ∈ t'.rows.map Prod.fst := List.mem_map.mpr ⟨_, hmem, rfl⟩
    rw [get?_eq_some_iff, overwrite, List.mem_append, ← get?_eq_some_iff, hget]
    simp [hin]
  | none =>
    have hout : ∀ r', (k, r') ∉ t'.rows := by
      intro r' hmem
      rw [get?_eq_some_iff.mpr hmem] at hget
      cases hget
    simp [get?_eq_some_iff, overwrite, hout]

/-! ## Searching -/

theorem any_iff : t.any p = true ↔ ∃ k r, t.get? k = some r ∧ p k r = true := by
  simp [any, get?_eq_some_iff]

theorem any_eq_false_iff : t.any p = false ↔ ∀ k r, t.get? k = some r → p k r = false := by
  simp only [← Bool.not_eq_true, any_iff, not_exists, not_and]

theorem mem_keys : k ∈ t.keys p ↔ ∃ r, t.get? k = some r ∧ p k r = true := by
  simp [keys, get?_eq_some_iff]

theorem get?_of_find? (h : t.find? p = some (k, r)) : t.get? k = some r ∧ p k r = true :=
  ⟨get?_eq_some_iff.mpr (List.mem_of_find?_eq_some h),
    List.find?_some (p := fun kr : κ × ρ => p kr.1 kr.2) h⟩

theorem find?_eq_none_iff : t.find? p = none ↔ ∀ k r, t.get? k = some r → p k r = false := by
  simp [find?, get?_eq_some_iff]

/-! ## Groups -/

/-- Where the rows are groups of entries, the entries with a key are those of its group. -/
theorem filter_flatMap {β : Type*} (entries : ρ → List β) (key : β → κ)
    (h : ∀ kr ∈ t.rows, ∀ b ∈ entries kr.2, key b = kr.1) (k : κ) :
    (t.rows.flatMap fun kr => entries kr.2).filter (fun b => key b = k) =
      ((t.get? k).map entries).getD [] := by
  obtain ⟨rows, hnd⟩ := t
  simp only [get?] at h ⊢
  induction rows with
  | nil => rfl
  | cons kr rows ih =>
    simp only [List.map_cons, List.nodup_cons] at hnd
    have hrest := ih hnd.2 fun kr' hkr' => h kr' (List.mem_cons_of_mem _ hkr')
    rw [List.flatMap_cons, List.filter_append, hrest, List.find?_cons]
    have hhead := h kr List.mem_cons_self
    by_cases hk : kr.1 = k
    · -- No other row has the key.
      have hnone : rows.find? (fun kr => decide (kr.1 = k)) = none := by
        refine List.find?_eq_none.mpr fun kr' hkr' hk' => hnd.1 ?_
        rw [hk, ← of_decide_eq_true hk']
        exact List.mem_map_of_mem hkr'
      have hall : (entries kr.2).filter (fun b => decide (key b = k)) = entries kr.2 :=
        List.filter_eq_self.mpr fun b hb => decide_eq_true ((hhead b hb).trans hk)
      simp [hnone, hall, hk]
    · have hnil : (entries kr.2).filter (fun b => decide (key b = k)) = [] := by
        refine List.filter_eq_nil_iff.mpr fun b hb hkey => hk ?_
        exact (hhead b hb).symm.trans (of_decide_eq_true hkey)
      simp [hnil, hk]

/-! ## Counting -/

omit [DecidableEq κ] in
@[simp] theorem count_modify (f : κ → ρ → ρ) :
    (t.modify f).count p = t.count fun k r => p k (f k r) := by
  simp [count, modify, List.countP_map, Function.comp_def]

omit [DecidableEq κ] in
theorem count_filter : (t.filter q).count p = t.count fun k r => p k r && q k r := by
  simp [count, filter, List.countP_filter]

omit [DecidableEq κ] in
theorem count_congr (h : ∀ kr ∈ t.rows, p kr.1 kr.2 = q kr.1 kr.2) : t.count p = t.count q :=
  List.countP_congr fun kr hkr => by rw [h kr hkr]

theorem count_congr_get? (h : ∀ k r, t.get? k = some r → p k r = q k r) :
    t.count p = t.count q :=
  count_congr fun kr hkr => h kr.1 kr.2 (get?_eq_some_iff.mpr hkr)

omit [DecidableEq κ] in
/-- Splitting the rows that satisfy `p` by `q`. -/
theorem count_split : t.count p =
    (t.count fun k r => p k r && q k r) + t.count fun k r => p k r && !q k r := by
  obtain ⟨rows, hnd⟩ := t
  simp only [count]
  clear hnd
  induction rows with
  | nil => rfl
  | cons kr rows ih =>
    simp only [List.countP_cons]
    cases hp : p kr.1 kr.2 <;> cases hq : q kr.1 kr.2 <;> simp <;> omega

theorem count_insert_new (h : t.get? k = none) :
    (t.insert k r).count p = t.count p + if p k r then 1 else 0 := by
  have hfilter : (t.rows.filter fun kr => kr.1 ≠ k) = t.rows := by
    refine List.filter_eq_self.mpr fun kr hkr => ?_
    have hne : kr.1 ≠ k := fun he => by
      subst he
      simp [get?_eq_some_iff.mpr hkr] at h
    simpa using hne
  simp only [count, insert, hfilter, List.countP_cons]

theorem count_eq_zero_iff : t.count p = 0 ↔ ∀ k r, t.get? k = some r → p k r = false := by
  simp [count, List.countP_eq_zero, get?_eq_some_iff]

end Table
