-- SUMMARY: Transactions that take exclusive row locks one after another, and the sets of programs of which no run deadlocks.
import BetterGraphileWorker.Library.Acyclic
import BetterGraphileWorker.Library.Runs
import BetterGraphileWorker.Library.Table

/-!
# Row locks

A transaction takes the locks of its program in order and keeps them to its end. It waits
for a required row that another transaction holds; an optional row (`SKIP LOCKED`, or a row
that turns out not to match) it takes if it is free, or passes over. Programs can deadlock if and only
if some of them can have taken disjoint sets of rows and each needs a row of another next.
-/

namespace RowLocks

structure Request (α : Type*) where
  row : α
  optional : Bool

/-- The rows that a transaction holds, and the requests it has still to make. -/
structure Tx (α : Type*) where
  held : List α
  rest : List (Request α)

structure State (α : Type*) where
  txs : Table ℕ (Tx α)
  next : ℕ

inductive Event (α : Type*) where
  | start (program : List (Request α))
  | take (k : ℕ)
  | pass (k : ℕ)
  /-- A commit, a rollback or a crash. -/
  | finish (k : ℕ)

section
variable {α : Type*} [DecidableEq α]

namespace State

variable (s : State α)

/-- No other transaction holds the row. -/
def free (k : ℕ) (row : α) : Bool := !s.txs.any fun k' tx => k' ≠ k && row ∈ tx.held

def take (k : ℕ) : Option (State α) :=
  match s.txs.get? k with
  | some ⟨held, request :: rest⟩ =>
    if s.free k request.row then
      some { s with txs := s.txs.insert k ⟨request.row :: held, rest⟩ }
    else none
  | _ => none

def pass (k : ℕ) : Option (State α) :=
  match s.txs.get? k with
  | some ⟨held, request :: rest⟩ =>
    if request.optional then some { s with txs := s.txs.insert k ⟨held, rest⟩ } else none
  | _ => none

def exec : Event α → Option (State α)
  | .start program => some { txs := s.txs.insert s.next ⟨[], program⟩, next := s.next + 1 }
  | .take k => s.take k
  | .pass k => s.pass k
  | .finish k =>
    match s.txs.get? k with
    | some _ => some { s with txs := s.txs.erase k }
    | none => none

/-- The next request of the first transaction is a row that the second one holds. -/
def WaitsFor (k k' : ℕ) : Prop :=
  k ≠ k' ∧ ∃ tx tx' row rest, s.txs.get? k = some tx ∧ s.txs.get? k' = some tx' ∧
    tx.rest = ⟨row, false⟩ :: rest ∧ row ∈ tx'.held

end State

/-- Any number of transactions on one database. -/
def system : TransitionSystem (State α) (Event α) where
  Init s := s = ⟨∅, 0⟩
  step s e := s.exec e

/-- Transactions run programs of the set only. -/
def Starts (programs : Set (List (Request α))) (e : Event α) : Prop :=
  ∀ program, e = .start program → program ∈ programs

omit [DecidableEq α] in
/-- What a transaction can hold after some requests: every required row, and optional ones. -/
def Takes (requests : List (Request α)) (taken : List α) : Prop :=
  (∀ row ∈ taken, ∃ request ∈ requests, request.row = row) ∧
    ∀ request ∈ requests, request.optional = false → request.row ∈ taken

/-- Some programs can have taken disjoint sets of rows, each with a row of another to take next. -/
def Knotted (programs : Set (List (Request α))) : Prop :=
  ∃ positions : List (List α × α), positions ≠ [] ∧
    positions.Pairwise (fun p p' => p.1.Disjoint p'.1) ∧
    ∀ p ∈ positions, p.2 ∉ p.1 ∧ (∃ p' ∈ positions, p.2 ∈ p'.1) ∧
      ∃ requests rest, requests ++ ⟨p.2, false⟩ :: rest ∈ programs ∧ Takes requests p.1

/-! ## Every cycle is a knot -/

variable {programs : Set (List (Request α))} {s s' : State α} {e : Event α} {k k' : ℕ}

theorem State.free_iff {row : α} : s.free k row = true ↔
    ∀ k' tx, s.txs.get? k' = some tx → k' ≠ k → row ∉ tx.held := by
  simp only [State.free, Bool.not_eq_true', Table.any_eq_false_iff, Bool.and_eq_false_iff,
    decide_eq_false_iff_not, not_not]
  grind

structure State.Inv (programs : Set (List (Request α))) (s : State α) : Prop where
  below : ∀ k tx, s.txs.get? k = some tx → k < s.next
  disjoint : ∀ k k' tx tx', k ≠ k' → s.txs.get? k = some tx → s.txs.get? k' = some tx' →
    tx.held.Disjoint tx'.held
  program : ∀ k tx, s.txs.get? k = some tx →
    ∃ requests, requests ++ tx.rest ∈ programs ∧ Takes requests tx.held

omit [DecidableEq α] in
private theorem Takes.take {requests : List (Request α)} {taken : List α} {request : Request α}
    (h : Takes requests taken) : Takes (requests ++ [request]) (request.row :: taken) := by
  obtain ⟨hfrom, hrequired⟩ := h
  constructor
  · intro row hrow
    rcases List.mem_cons.mp hrow with rfl | hrow
    · exact ⟨request, by simp, rfl⟩
    · obtain ⟨request', hmem, hrow⟩ := hfrom row hrow
      exact ⟨request', List.mem_append_left _ hmem, hrow⟩
  · intro request' hmem hoptional
    rcases List.mem_append.mp hmem with hmem | hmem
    · exact List.mem_cons_of_mem _ (hrequired request' hmem hoptional)
    · rw [List.mem_singleton.mp hmem]
      exact List.mem_cons_self

omit [DecidableEq α] in
private theorem Takes.pass {requests : List (Request α)} {taken : List α} {request : Request α}
    (h : Takes requests taken) (hoptional : request.optional = true) :
    Takes (requests ++ [request]) taken := by
  obtain ⟨hfrom, hrequired⟩ := h
  constructor
  · intro row hrow
    obtain ⟨request', hmem, hrow⟩ := hfrom row hrow
    exact ⟨request', List.mem_append_left _ hmem, hrow⟩
  · intro request' hmem hrequest
    rcases List.mem_append.mp hmem with hmem | hmem
    · exact hrequired request' hmem hrequest
    · simp [List.mem_singleton.mp hmem, hoptional] at hrequest

/-- No row has two holders, and each transaction is somewhere in a program that `R` gives it. -/
private structure State.Tracks (R : ℕ → List (Request α) → Prop) (s : State α) : Prop where
  below : ∀ k tx, s.txs.get? k = some tx → k < s.next
  disjoint : ∀ k k' tx tx', k ≠ k' → s.txs.get? k = some tx → s.txs.get? k' = some tx' →
    tx.held.Disjoint tx'.held
  program : ∀ k tx, s.txs.get? k = some tx →
    ∃ requests, R k (requests ++ tx.rest) ∧ Takes requests tx.held

section
variable {R R' : ℕ → List (Request α) → Prop} {tx : Tx α}

omit [DecidableEq α] in
/-- One transaction changes, and holds nothing that another one holds. -/
private theorem State.Tracks.insert {next : ℕ} (hinv : s.Tracks R) (hnext : s.next ≤ next) (hk : k < next)
    (hfree : ∀ k' tx', s.txs.get? k' = some tx' → k' ≠ k → tx.held.Disjoint tx'.held)
    (hkept : ∀ k' ≠ k, k' < s.next → ∀ requests, R k' requests → R' k' requests)
    (hprogram : ∃ requests, R' k (requests ++ tx.rest) ∧ Takes requests tx.held) :
    State.Tracks R' ⟨s.txs.insert k tx, next⟩ where
  below k' tx' hget := by
    rcases Table.get?_insert_eq_some.mp hget with ⟨rfl, -⟩ | ⟨-, hget⟩
    · exact hk
    · exact (hinv.below k' tx' hget).trans_le hnext
  disjoint k₁ k₂ tx₁ tx₂ hne hget₁ hget₂ := by
    rcases Table.get?_insert_eq_some.mp hget₁ with ⟨rfl, rfl⟩ | ⟨hk₁, hold₁⟩
    · rcases Table.get?_insert_eq_some.mp hget₂ with ⟨rfl, -⟩ | ⟨hk₂, hold₂⟩
      · exact absurd rfl hne
      · exact hfree k₂ tx₂ hold₂ hk₂
    · rcases Table.get?_insert_eq_some.mp hget₂ with ⟨rfl, rfl⟩ | ⟨-, hold₂⟩
      · exact (hfree k₁ tx₁ hold₁ hk₁).symm
      · exact hinv.disjoint k₁ k₂ tx₁ tx₂ hne hold₁ hold₂
  program k' tx' hget := by
    rcases Table.get?_insert_eq_some.mp hget with ⟨rfl, rfl⟩ | ⟨hne, hget⟩
    · exact hprogram
    · obtain ⟨requests, hR, htakes⟩ := hinv.program k' tx' hget
      exact ⟨requests, hkept k' hne (hinv.below k' tx' hget) _ hR, htakes⟩

private theorem State.Tracks.exec (hinv : s.Tracks R) (hstart : ∀ program, e = .start program → R' s.next program)
    (hkept : ∀ k < s.next, e ≠ .finish k → ∀ requests, R k requests → R' k requests)
    (h : s.exec e = some s') : s'.Tracks R' := by
  cases e with
  | start program =>
    obtain rfl := Option.some.inj h
    apply hinv.insert (Nat.le_succ _) (Nat.lt_succ_self _)
    · intro k' tx' _ _
      exact List.disjoint_nil_left _
    · intro k' _ hlt
      exact hkept k' hlt (by rintro ⟨⟩)
    · exact ⟨[], hstart program rfl, by simp [Takes]⟩
  | take k =>
    simp only [State.exec, State.take] at h
    split at h
    · rename_i held request rest hget
      simp only [Option.ite_none_right_eq_some, Option.some.injEq] at h
      obtain ⟨hfree, rfl⟩ := h
      obtain ⟨requests, hR, htakes⟩ := hinv.program k _ hget
      have hlt := hinv.below k _ hget
      apply hinv.insert le_rfl hlt
      · intro k' tx' hget' hne
        rw [List.disjoint_cons_left]
        exact ⟨State.free_iff.mp hfree k' tx' hget' hne, hinv.disjoint k k' _ tx' hne.symm hget hget'⟩
      · intro k' _ hlt
        exact hkept k' hlt (by rintro ⟨⟩)
      · exact ⟨requests ++ [request], hkept k hlt (by rintro ⟨⟩) _ (by simpa using hR), htakes.take⟩
    · cases h
  | pass k =>
    simp only [State.exec, State.pass] at h
    split at h
    · rename_i held request rest hget
      simp only [Option.ite_none_right_eq_some, Option.some.injEq] at h
      obtain ⟨hoptional, rfl⟩ := h
      obtain ⟨requests, hR, htakes⟩ := hinv.program k _ hget
      have hlt := hinv.below k _ hget
      apply hinv.insert le_rfl hlt
      · intro k' tx' hget' hne
        have hdisjoint := hinv.disjoint k k' _ tx' hne.symm hget hget'
        exact hdisjoint
      · intro k' _ hlt
        exact hkept k' hlt (by rintro ⟨⟩)
      · exact ⟨requests ++ [request], hkept k hlt (by rintro ⟨⟩) _ (by simpa using hR), htakes.pass hoptional⟩
    · cases h
  | finish k =>
    simp only [State.exec] at h
    split at h
    · obtain rfl := Option.some.inj h
      constructor
      · intro k' tx hget
        exact hinv.below k' tx (Table.get?_erase_eq_some.mp hget).2
      · intro k₁ k₂ tx₁ tx₂ hne hget₁ hget₂
        exact hinv.disjoint k₁ k₂ tx₁ tx₂ hne (Table.get?_erase_eq_some.mp hget₁).2
          (Table.get?_erase_eq_some.mp hget₂).2
      · intro k' tx hget
        obtain ⟨hne, hget⟩ := Table.get?_erase_eq_some.mp hget
        obtain ⟨requests, hR, htakes⟩ := hinv.program k' tx hget
        refine ⟨requests, hkept k' (hinv.below k' tx hget) ?_ _ hR, htakes⟩
        rintro heq
        cases heq
        exact hne rfl
    · cases h

end

theorem State.inv_exec (hinv : s.Inv programs) (hstart : Starts programs e) (h : s.exec e = some s') :
    s'.Inv programs := by
  have htracks : s.Tracks fun _ requests => requests ∈ programs :=
    ⟨hinv.below, hinv.disjoint, hinv.program⟩
  have htracks' : s'.Tracks fun _ requests => requests ∈ programs :=
    htracks.exec hstart (fun _ _ _ _ hR => hR) h
  exact ⟨htracks'.below, htracks'.disjoint, htracks'.program⟩

theorem State.inv_reachable (h : system.ReachableWith (fun _ e => Starts programs e) s) :
    s.Inv programs := by
  refine h.invariant (I := State.Inv programs) ?_ ?_
  · rintro s rfl
    exact ⟨nofun, nofun, nofun⟩
  · intro s e s' _ hinv hstart hstep
    exact State.inv_exec hinv hstart hstep

omit [DecidableEq α] in
/-- What a transaction holds, and the row that it takes next. -/
private def position? (s : State α) (k : ℕ) : Option (List α × α) :=
  match s.txs.get? k with
  | some ⟨held, request :: _⟩ => some (held, request.row)
  | _ => none

omit [DecidableEq α] in
private theorem position?_eq_some {p : List α × α} (h : position? s k = some p) :
    ∃ tx, s.txs.get? k = some tx ∧ tx.held = p.1 := by
  simp only [position?] at h
  split at h
  · rename_i hget
    cases h
    exact ⟨_, hget, rfl⟩
  · cases h

omit [DecidableEq α] in
private theorem State.WaitsFor.position? (h : s.WaitsFor k k') (hinv : s.Inv programs) :
    ∃ p, RowLocks.position? s k = some p ∧ p.2 ∉ p.1 ∧
      (∀ p', RowLocks.position? s k' = some p' → p.2 ∈ p'.1) ∧
      ∃ requests rest, requests ++ ⟨p.2, false⟩ :: rest ∈ programs ∧ Takes requests p.1 := by
  obtain ⟨hne, ⟨held, _⟩, tx', row, rest, hget, hget', rfl, hrow⟩ := h
  refine ⟨(held, row), by simp [RowLocks.position?, hget], ?_, ?_, ?_⟩
  · intro hmem
    exact hinv.disjoint k k' _ tx' hne hget hget' hmem hrow
  · intro p' hp'
    obtain ⟨tx'', hget'', hheld⟩ := position?_eq_some hp'
    obtain rfl := Option.some.inj (hget'.symm.trans hget'')
    exact hheld ▸ hrow
  · obtain ⟨requests, hprogram, htakes⟩ := hinv.program k _ hget
    exact ⟨requests, rest, hprogram, htakes⟩

omit [DecidableEq α] in
/-- In a state of the invariant the transactions of a cycle show a knot of their programs. -/
theorem State.Inv.acyclic (hinv : s.Inv programs) (hnot : ¬Knotted programs) :
    Acyclic s.WaitsFor := by
  apply by_contra
  intro hcycle
  obtain ⟨l, hne, hl⟩ := Acyclic.not_iff_exists_list.mp hcycle
  apply hnot
  refine ⟨l.dedup.filterMap (position? s), ?_, ?_, ?_⟩
  · obtain ⟨k, hk⟩ := List.exists_mem_of_ne_nil l hne
    obtain ⟨k', -, hwaits⟩ := hl k hk
    obtain ⟨p, hp, -⟩ := hwaits.position? hinv
    exact List.ne_nil_of_mem (List.mem_filterMap.mpr ⟨k, List.mem_dedup.mpr hk, hp⟩)
  · rw [List.pairwise_filterMap]
    apply l.nodup_dedup.imp
    intro k k' hne p hp p' hp'
    obtain ⟨tx, hget, hheld⟩ := position?_eq_some hp
    obtain ⟨tx', hget', hheld'⟩ := position?_eq_some hp'
    rw [← hheld, ← hheld']
    exact hinv.disjoint k k' tx tx' hne hget hget'
  · intro p hmem
    obtain ⟨k, hk, hp⟩ := List.mem_filterMap.mp hmem
    obtain ⟨k', hk', hwaits⟩ := hl k (List.mem_dedup.mp hk)
    obtain ⟨p₁, hp₁, hown, hother, hprogram⟩ := hwaits.position? hinv
    obtain rfl := Option.some.inj (hp.symm.trans hp₁)
    refine ⟨hown, ?_, hprogram⟩
    obtain ⟨k'', -, hwaits'⟩ := hl k' hk'
    obtain ⟨p', hp', -⟩ := hwaits'.position? hinv
    exact ⟨p', List.mem_filterMap.mpr ⟨k', List.mem_dedup.mpr hk', hp'⟩, hother p' hp'⟩

/-! ## Every knot is a cycle -/

/-- A transaction that finds the rows of `taken` free can have taken just these. -/
private theorem exists_requests {taken : List α} {rest : List (Request α)} :
    ∀ (requests : List (Request α)) {s : State α} {held : List α},
    system.ReachableWith (fun _ e => Starts programs e) s →
    s.txs.get? k = some ⟨held, requests ++ rest⟩ →
    (∀ row ∈ taken, s.free k row = true) →
    (∀ request ∈ requests, request.optional = false → request.row ∈ taken) →
    ∃ held' s', system.ReachableWith (fun _ e => Starts programs e) s' ∧ s'.next = s.next ∧
      s'.txs.get? k = some ⟨held', rest⟩ ∧ (∀ k' ≠ k, s'.txs.get? k' = s.txs.get? k') ∧
      ∀ row, row ∈ held' ↔ row ∈ held ∨ row ∈ taken ∧ ∃ request ∈ requests, request.row = row
  | [], s, held, hr, hget, _, _ => ⟨held, s, hr, rfl, hget, fun _ _ => rfl, by simp⟩
  | request :: requests, s, held, hr, hget, hfree, hrequired => by
    -- The request takes its row or passes over it; the other transactions stay as they are.
    have hnext : ∃ held₁ s₁, system.ReachableWith (fun _ e => Starts programs e) s₁ ∧
        s₁ = { s with txs := s.txs.insert k ⟨held₁, requests ++ rest⟩ } ∧
        ∀ row, row ∈ held₁ ↔ row ∈ held ∨ row ∈ taken ∧ request.row = row := by
      cases Classical.em (request.row ∈ taken) with
      | inl hmem =>
        have hstart : Starts programs (.take k) := by rintro _ ⟨⟩
        have hstep : system.step s (.take k) =
            some { s with txs := s.txs.insert k ⟨request.row :: held, requests ++ rest⟩ } := by
          simp [system, State.exec, State.take, hget, hfree _ hmem]
        refine ⟨_, _, .step hr hstart hstep, rfl, fun row => ?_⟩
        rw [List.mem_cons]
        grind
      | inr hnot =>
        have hoptional : request.optional = true := by
          cases ho : request.optional with
          | true => rfl
          | false => exact absurd (hrequired request List.mem_cons_self ho) hnot
        have hstart : Starts programs (.pass k) := by rintro _ ⟨⟩
        have hstep : system.step s (.pass k) =
            some { s with txs := s.txs.insert k ⟨held, requests ++ rest⟩ } := by
          simp [system, State.exec, State.pass, hget, hoptional]
        refine ⟨_, _, .step hr hstart hstep, rfl, fun row => ?_⟩
        grind
    obtain ⟨held₁, s₁, hr₁, rfl, hheld₁⟩ := hnext
    have hother : ∀ k' ≠ k, (s.txs.insert k ⟨held₁, requests ++ rest⟩).get? k' = s.txs.get? k' :=
      fun k' hne => Table.get?_insert_ne hne
    obtain ⟨held', s', hr', hnext', hget', hkept', hheld'⟩ :=
      exists_requests requests hr₁ Table.get?_insert_self
        (fun row hrow => State.free_iff.mpr fun k' tx hget' hne =>
          State.free_iff.mp (hfree row hrow) k' tx ((hother k' hne).symm.trans hget') hne)
        (fun request' hmem => hrequired request' (List.mem_cons_of_mem _ hmem))
    refine ⟨held', s', hr', hnext', hget', fun k' hne => (hkept' k' hne).trans (hother k' hne), ?_⟩
    intro row
    rw [hheld', hheld₁]
    grind

omit [DecidableEq α] in
/-- The transaction holds the rows of the position, and takes its next row next. -/
private def At (p : List α × α) (tx : Tx α) : Prop :=
  (∀ row, row ∈ tx.held ↔ row ∈ p.1) ∧ ∃ rest, tx.rest = ⟨p.2, false⟩ :: rest

/-- Transactions that take disjoint sets of rows do not disturb each other. -/
private theorem exists_positions : ∀ ps : List (List α × α),
    ps.Pairwise (fun p p' => p.1.Disjoint p'.1) →
    (∀ p ∈ ps, ∃ requests rest, requests ++ ⟨p.2, false⟩ :: rest ∈ programs ∧
      Takes requests p.1) →
    ∃ s, system.ReachableWith (fun _ e => Starts programs e) s ∧
      (∀ p ∈ ps, ∃ k tx, s.txs.get? k = some tx ∧ At p tx) ∧
      ∀ k tx, s.txs.get? k = some tx → ∃ p ∈ ps, At p tx
  | [], _, _ => ⟨_, .init rfl, nofun, nofun⟩
  | p :: ps, hdisjoint, hprograms => by
    rw [List.pairwise_cons] at hdisjoint
    obtain ⟨s, hr, hmem, hall⟩ := exists_positions ps hdisjoint.2
      fun p' hp' => hprograms p' (List.mem_cons_of_mem _ hp')
    obtain ⟨requests, rest, hprogram, hfrom, hrequired⟩ := hprograms p List.mem_cons_self
    have hbelow := (State.inv_reachable hr).below
    have hstart : Starts programs (.start (requests ++ ⟨p.2, false⟩ :: rest)) := by
      intro program heq
      cases heq
      exact hprogram
    have hr₁ : system.ReachableWith (fun _ e => Starts programs e)
        ⟨s.txs.insert s.next ⟨[], requests ++ ⟨p.2, false⟩ :: rest⟩, s.next + 1⟩ :=
      .step hr hstart rfl
    have hold : ∀ k tx, s.txs.get? k = some tx → k ≠ s.next :=
      fun k tx hget => (hbelow k tx hget).ne
    obtain ⟨held, s', hr', -, hget, hkept, hheld⟩ := exists_requests (k := s.next) requests hr₁
      Table.get?_insert_self
      (by
        intro row hrow
        rw [State.free_iff]
        intro k tx hget hne
        rw [Table.get?_insert_ne hne] at hget
        obtain ⟨p', hp', hat, -⟩ := hall k tx hget
        rw [hat]
        exact hdisjoint.1 p' hp' hrow)
      hrequired
    have hat : At p ⟨held, ⟨p.2, false⟩ :: rest⟩ := by
      refine ⟨fun row => ?_, rest, rfl⟩
      rw [hheld]
      have := hfrom row
      grind
    have hkept' : ∀ k ≠ s.next, s'.txs.get? k = s.txs.get? k :=
      fun k hne => (hkept k hne).trans (Table.get?_insert_ne hne)
    refine ⟨s', hr', fun p' hp' => ?_, fun k tx hget' => ?_⟩
    · rcases List.mem_cons.mp hp' with rfl | hp'
      · exact ⟨s.next, _, hget, hat⟩
      · obtain ⟨k, tx, hget', hat'⟩ := hmem p' hp'
        exact ⟨k, tx, (hkept' k (hold k tx hget')).trans hget', hat'⟩
    · cases Classical.em (k = s.next) with
      | inl heq =>
        rw [heq, hget] at hget'
        exact ⟨p, List.mem_cons_self, Option.some.inj hget' ▸ hat⟩
      | inr hne =>
        rw [hkept' k hne] at hget'
        obtain ⟨p', hp', hat'⟩ := hall k tx hget'
        exact ⟨p', List.mem_cons_of_mem _ hp', hat'⟩

/-- Programs can deadlock if and only if they are knotted. -/
theorem acyclic_iff_not_knotted :
    (∀ s, system.ReachableWith (fun _ e => Starts programs e) s → Acyclic s.WaitsFor) ↔
      ¬Knotted programs := by
  constructor
  · intro h
    rintro ⟨ps, hne, hdisjoint, hps⟩
    obtain ⟨s, hr, hmem, hall⟩ := exists_positions ps hdisjoint fun p hp => (hps p hp).2.2
    refine absurd (h s hr) (Acyclic.not_iff_exists_list.mpr ⟨s.txs.keys fun _ _ => true, ?_, ?_⟩)
    · obtain ⟨p, hp⟩ := List.exists_mem_of_ne_nil ps hne
      obtain ⟨k, tx, hget, -⟩ := hmem p hp
      exact List.ne_nil_of_mem (Table.mem_keys.mpr ⟨tx, hget, rfl⟩)
    · intro k hk
      obtain ⟨tx, hget, -⟩ := Table.mem_keys.mp hk
      obtain ⟨p, hp, hheld, rest, hrest⟩ := hall k tx hget
      obtain ⟨hown, ⟨p', hp', hother⟩, -⟩ := hps p hp
      obtain ⟨k', tx', hget', hheld', -⟩ := hmem p' hp'
      refine ⟨k', Table.mem_keys.mpr ⟨tx', hget', rfl⟩, ?_, tx, tx', p.2, rest, hget, hget', hrest,
        (hheld' p.2).mpr hother⟩
      rintro rfl
      obtain rfl := Option.some.inj (hget.symm.trans hget')
      exact hown ((hheld p.2).mp ((hheld' p.2).mpr hother))
  · intro hnot s hr
    exact (State.inv_reachable hr).acyclic hnot

omit [DecidableEq α] in
theorem Knotted.mono {programs' : Set (List (Request α))} (h : Knotted programs)
    (hsub : programs ⊆ programs') : Knotted programs' := by
  obtain ⟨positions, hne, hdisjoint, hpositions⟩ := h
  refine ⟨positions, hne, hdisjoint, fun p hp => ?_⟩
  obtain ⟨hown, hother, requests, rest, hprogram, htakes⟩ := hpositions p hp
  exact ⟨hown, hother, requests, rest, hsub hprogram, htakes⟩

omit [DecidableEq α] in
/-- Programs that take their required rows above all the others before them have no knot. -/
theorem not_knotted_of_ordered {lt : α → α → Prop} (hirrefl : ∀ a, ¬lt a a)
    (htrans : ∀ {a b c}, lt a b → lt b c → lt a c)
    (h : ∀ requests row rest, requests ++ ⟨row, false⟩ :: rest ∈ programs →
      ∀ earlier ∈ requests, earlier.row ≠ row → lt earlier.row row) : ¬Knotted programs := by
  rintro ⟨ps, hne, -, hps⟩
  have hcycle : ¬Acyclic fun p p' : List α × α => lt p.2 p'.2 := by
    refine Acyclic.not_iff_exists_list.mpr ⟨ps, hne, fun p hp => ?_⟩
    obtain ⟨-, ⟨p', hp', hrow⟩, -⟩ := hps p hp
    obtain ⟨hown, -, requests, rest, hprogram, hfrom, -⟩ := hps p' hp'
    obtain ⟨earlier, hmem, hearlier⟩ := hfrom _ hrow
    refine ⟨p', hp', hearlier ▸ h _ _ _ hprogram earlier hmem ?_⟩
    intro heq
    exact hown (heq ▸ hearlier ▸ hrow)
  apply hcycle
  intro p hp
  apply hirrefl p.2
  have hpath : ∀ {p'}, Relation.TransGen (fun p p' : List α × α => lt p.2 p'.2) p p' →
      lt p.2 p'.2 := by
    intro p' hpp'
    induction hpp' with
    | single hlt => exact hlt
    | tail _ hlt ih => exact htrans ih hlt
  exact hpath hp

/-! ## Kinds of transactions -/

omit [DecidableEq α] in
/-- Transactions beside what they are for. -/
structure Kinds (α β : Type*) where
  locks : State α
  running : Table ℕ β

end

namespace Kinds

variable {α β : Type*} [DecidableEq α]

inductive Event (β : Type*) where
  | start (kind : β)
  | take (k : ℕ)
  | pass (k : ℕ)
  | finish (k : ℕ)

def exec (program : β → List (Request α)) (s : Kinds α β) : Event β → Option (Kinds α β)
  | .start kind => (s.locks.exec (.start (program kind))).map fun locks =>
      ⟨locks, s.running.insert s.locks.next kind⟩
  | .take k => (s.locks.exec (.take k)).map fun locks => ⟨locks, s.running⟩
  | .pass k => (s.locks.exec (.pass k)).map fun locks => ⟨locks, s.running⟩
  | .finish k => (s.locks.exec (.finish k)).map fun locks => ⟨locks, s.running.erase k⟩

/-- Transactions of these kinds on one database. -/
def system (program : β → List (Request α)) : TransitionSystem (Kinds α β) (Event β) where
  Init s := s = ⟨⟨∅, 0⟩, ∅⟩
  step s e := s.exec program e

/-- The programs of the transactions in progress. -/
def programs (program : β → List (Request α)) (s : Kinds α β) : Set (List (Request α)) :=
  {requests | ∃ k kind, s.running.get? k = some kind ∧ program kind = requests}

/-- Every transaction is somewhere in the program of its kind. -/
structure Inv (program : β → List (Request α)) (s : Kinds α β) : Prop where
  below : ∀ k tx, s.locks.txs.get? k = some tx → k < s.locks.next
  disjoint : ∀ k k' tx tx', k ≠ k' → s.locks.txs.get? k = some tx → s.locks.txs.get? k' = some tx' →
    tx.held.Disjoint tx'.held
  program : ∀ k tx, s.locks.txs.get? k = some tx → ∃ kind, s.running.get? k = some kind ∧
    ∃ requests, requests ++ tx.rest = program kind ∧ Takes requests tx.held

variable {program : β → List (Request α)} {s s' : Kinds α β} {e : Event β}
  {cond : Kinds α β → Event β → Prop}

theorem Inv.exec (hinv : s.Inv program) (h : s.exec program e = some s') : s'.Inv program := by
  have htracks : s.locks.Tracks fun k requests =>
      ∃ kind, s.running.get? k = some kind ∧ requests = program kind := by
    refine ⟨hinv.below, hinv.disjoint, fun k tx hget => ?_⟩
    obtain ⟨kind, hkind, requests, hprogram, htakes⟩ := hinv.program k tx hget
    exact ⟨requests, ⟨kind, hkind, hprogram⟩, htakes⟩
  suffices htracks' : s'.locks.Tracks fun k requests =>
      ∃ kind, s'.running.get? k = some kind ∧ requests = program kind by
    refine ⟨htracks'.below, htracks'.disjoint, fun k tx hget => ?_⟩
    obtain ⟨requests, ⟨kind, hkind, hprogram⟩, htakes⟩ := htracks'.program k tx hget
    exact ⟨kind, hkind, requests, hprogram, htakes⟩
  cases e with
  | start kind =>
    obtain rfl := Option.some.inj h
    have hlocks : s.locks.exec (.start (program kind)) = some _ := rfl
    refine htracks.exec ?_ ?_ hlocks
    · rintro _ ⟨⟩
      exact ⟨kind, Table.get?_insert_self, rfl⟩
    · rintro k hlt - requests ⟨kind', hkind', hprogram⟩
      exact ⟨kind', (Table.get?_insert_ne hlt.ne).trans hkind', hprogram⟩
  | take k | pass k =>
    obtain ⟨locks, hlocks, rfl⟩ := Option.map_eq_some_iff.mp h
    exact htracks.exec (by rintro _ ⟨⟩) (fun _ _ _ _ hR => hR) hlocks
  | finish k =>
    obtain ⟨locks, hlocks, rfl⟩ := Option.map_eq_some_iff.mp h
    refine htracks.exec (by rintro _ ⟨⟩) ?_ hlocks
    rintro k' - hne requests ⟨kind, hkind, hprogram⟩
    refine ⟨kind, ?_, hprogram⟩
    rw [Table.get?_erase_eq_some]
    exact ⟨fun heq => hne (heq ▸ rfl), hkind⟩

theorem inv_of_reachable (h : (system program).ReachableWith cond s) : s.Inv program := by
  refine h.invariant (I := Inv program) ?_ ?_
  · rintro s rfl
    constructor
    · intro k tx hget
      cases hget
    · intro k k' tx tx' _ hget
      cases hget
    · intro k tx hget
      cases hget
  · intro s e s' _ hinv _ hstep
    exact hinv.exec hstep

/-- A transaction starts that is not knotted with those in progress. -/
def Calm (program : β → List (Request α)) (s : Kinds α β) (e : Event β) : Prop :=
  ∀ kind, e = .start kind → ¬Knotted (insert (program kind) (s.programs program))

/-- Transactions of these kinds start. -/
def Among (kinds : Set β) (e : Event β) : Prop := ∀ kind, e = .start kind → kind ∈ kinds

variable {kinds : Set β}

/-- What an event does to the locks. -/
def Event.locks (program : β → List (Request α)) : Event β → RowLocks.Event α
  | .start kind => .start (program kind)
  | .take k => .take k
  | .pass k => .pass k
  | .finish k => .finish k

private theorem exec_locks (h : s.exec program e = some s') :
    s.locks.exec (e.locks program) = some s'.locks := by
  cases e with
  | start kind =>
    obtain rfl := Option.some.inj h
    rfl
  | take k | pass k | finish k =>
    obtain ⟨locks, hexec, rfl⟩ := Option.map_eq_some_iff.mp h
    exact hexec

private theorem exists_exec {locks : State α} (h : s.locks.exec (e.locks program) = some locks) :
    ∃ running, s.exec program e = some ⟨locks, running⟩ := by
  cases e with
  | start kind =>
    obtain rfl := Option.some.inj h
    exact ⟨_, rfl⟩
  | take k | pass k | finish k => exact ⟨_, Option.map_eq_some_iff.mpr ⟨locks, h, rfl⟩⟩

omit [DecidableEq α] in
private theorem starts_locks (h : Among kinds e) : Starts (program '' kinds) (e.locks program) := by
  cases e with
  | start kind =>
    rintro _ ⟨⟩
    exact ⟨kind, h kind rfl, rfl⟩
  | take k | pass k | finish k => rintro _ ⟨⟩

theorem reachable_locks (h : (system program).ReachableWith (fun _ e => Among kinds e) s) :
    RowLocks.system.ReachableWith (fun _ e => Starts (program '' kinds) e) s.locks := by
  refine h.invariant (I := fun s => RowLocks.system.ReachableWith
    (fun _ e => Starts (program '' kinds) e) s.locks) ?_ ?_
  · rintro s rfl
    exact .init rfl
  · intro s e s' _ hlocks hamong hstep
    exact .step hlocks (starts_locks hamong) (exec_locks hstep)

/-- Every run of the locks is one of transactions of these kinds. -/
theorem exists_running {locks : State α}
    (h : RowLocks.system.ReachableWith (fun _ e => Starts (program '' kinds) e) locks) :
    ∃ running, (system program).ReachableWith (fun _ e => Among kinds e) ⟨locks, running⟩ := by
  refine h.invariant (I := fun locks => ∃ running,
    (system program).ReachableWith (fun _ e => Among kinds e) ⟨locks, running⟩) ?_ ?_
  · rintro locks rfl
    exact ⟨∅, .init rfl⟩
  · rintro locks e locks' _ ⟨running, hreach⟩ hstarts hstep
    have hevent : ∃ e' : Event β, Among kinds e' ∧ e'.locks program = e := by
      cases e with
      | start requests =>
        obtain ⟨kind, hkind, rfl⟩ := hstarts requests rfl
        refine ⟨.start kind, ?_, rfl⟩
        rintro _ ⟨⟩
        exact hkind
      | take k => exact ⟨.take k, by rintro _ ⟨⟩, rfl⟩
      | pass k => exact ⟨.pass k, by rintro _ ⟨⟩, rfl⟩
      | finish k => exact ⟨.finish k, by rintro _ ⟨⟩, rfl⟩
    obtain ⟨e', hamong, rfl⟩ := hevent
    obtain ⟨running', hexec⟩ := exists_exec (s := ⟨locks, running⟩) hstep
    exact ⟨running', .step hreach hamong hexec⟩

/-- Transactions of a set of kinds can deadlock if and only if their programs are knotted. -/
theorem acyclic_iff_not_knotted (program : β → List (Request α)) (kinds : Set β) :
    (∀ s, (system program).ReachableWith (fun _ e => Among kinds e) s → Acyclic s.locks.WaitsFor) ↔
      ¬Knotted (program '' kinds) := by
  rw [← RowLocks.acyclic_iff_not_knotted]
  constructor
  · intro h locks hlocks
    obtain ⟨running, hreach⟩ := exists_running hlocks
    exact h _ hreach
  · intro h s hreach
    exact h s.locks (reachable_locks hreach)

end Kinds

end RowLocks
