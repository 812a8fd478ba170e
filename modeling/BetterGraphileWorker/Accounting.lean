-- SUMMARY: Wait accounting: a group counts its unreported children, results are written once, and one statement sees zero.
import BetterGraphileWorker.System.WellFormed

/-!
# Wait accounting

The ledger records, per group, how many children it was created with and how many
reporting statements have returned it with `remaining = 0` since.
-/

namespace BetterGraphileWorker

structure Ledger where
  counts : GroupKey → ℕ
  zeros : GroupKey → ℕ

def Ledger.empty : Ledger := ⟨fun _ => 0, fun _ => 0⟩

/-- The report that a step's statement writes, if it reports. -/
def State.reportOf (s : State) : Event → Option Report
  | .settle _ k settle visible =>
    match s.attempts.get? k with
    | none => none
    | some a =>
      if (s.db.owned a.job).isSome then
        settle.report.map fun report => childReport a.job.id report visible
      else none
  | .sweepLost _ seen skipped => some (lostReport s.db seen skipped)
  | _ => none

/-- The `counted` rows of a report that hold `remaining = 0`. -/
def Db.countsToZero (db : Db) (report : Report) (key : GroupKey) : Bool :=
  (db.groups.get? key).any fun group =>
    0 < db.reported report key && (group.countDown (db.reported report key)).remaining = 0

/-- The group that a step creates, with the call that creates it. -/
def State.creates (s : State) : Event → Option (GroupKey × WaitCall)
  | .waitCommit id _ =>
    match s.txs.get? id with
    | some ⟨_, _, .waitLooked call _ none⟩ => some ((id, call.waitId), call)
    | _ => none
  | _ => none

/-- Groups are entered when they are created, and zeros when a statement returns them. -/
def Ledger.note (s : State) (e : Event) (_ : State) (l : Ledger) : Ledger :=
  match s.creates e with
  | some (key, call) =>
    { counts := Function.update l.counts key call.inputs.length
      zeros := Function.update l.zeros key 0 }
  | none =>
    match s.reportOf e with
    | some report =>
      { l with zeros := fun key =>
          if s.db.countsToZero report key then l.zeros key + 1 else l.zeros key }
    | none => l

/-- The system with its ledger. -/
def accounted : TransitionSystem (State × Ledger) Event := system.observe .empty Ledger.note

/-! ## Counting wait rows -/

section
variable {db : Db} {now : Time} {report : Report} {key group : GroupKey} {ids : List JobId}

theorem unreported_reportWaits : db.unreported group =
    (reportWaits now report db).unreported group + db.reported report group := by
  have hreported : db.reported report group = db.waits.count fun k wait =>
      (k.1 = group && wait.pending) && (report.resolution k wait).isSome := by
    refine Table.count_congr fun kr _ => ?_
    cases hp : kr.2.pending <;> simp [Report.resolution, hp]
  have hafter : (reportWaits now report db).unreported group = db.waits.count fun k wait =>
      (k.1 = group && wait.pending) && !(report.resolution k wait).isSome := by
    simp only [Db.unreported, reportWaits, wakeParents, resolveWaits, Table.count_modify]
    refine Table.count_congr fun kr _ => ?_
    cases hres : report.resolution kr.1 kr.2 <;> simp [Wait.setResult, Wait.pending]
  rw [hreported, hafter, Db.unreported, Table.count_split (q := fun k wait =>
    (report.resolution k wait).isSome)]
  omega

private theorem count_insertWaits (l : List JobId) (n : ℕ) (waits : Table WaitKey Wait)
    (h : ∀ i, n ≤ i → waits.get? (key, i) = none) :
    ((l.zipIdx n).foldl (fun (waits : Table WaitKey Wait) (child : JobId × ℕ) =>
      waits.insert (key, child.2) ⟨child.1, none, none⟩) waits).count
        (fun k wait => k.1 = group && wait.pending) =
      waits.count (fun k wait => k.1 = group && wait.pending) +
        if key = group then l.length else 0 := by
  induction l generalizing n waits with
  | nil => simp
  | cons child l ih =>
    rw [List.zipIdx_cons, List.foldl_cons, ih (n + 1)]
    · rw [Table.count_insert_new (h n (le_refl n))]
      by_cases hkey : key = group
      · simp [hkey, Wait.pending]; omega
      · simp [hkey]
    · intro i hi
      rw [Table.get?_insert_ne, h i (by omega)]
      simp
      omega

theorem unreported_insertWaits (h : ∀ i, db.waits.get? (key, i) = none) :
    (insertWaits key ids db).unreported group =
      db.unreported group + if key = group then ids.length else 0 :=
  count_insertWaits ids 0 db.waits fun i _ => h i

theorem unreported_congr {db' : Db} (h : db'.waits = db.waits) :
    db'.unreported group = db.unreported group := by
  rw [Db.unreported, Db.unreported, h]

theorem unreported_retargetWaits {id id' : JobId} :
    (retargetWaits id id' db).unreported group = db.unreported group := by
  simp only [Db.unreported, retargetWaits, Table.count_modify]
  refine Table.count_congr fun kr _ => ?_
  split <;> rfl

/-- Dropping the rows of other groups leaves a group's count alone. -/
theorem unreported_filter {p : WaitKey → Wait → Bool} {db' : Db}
    (hw : db'.waits = db.waits.filter p) (hp : ∀ k wait, k.1 = group → p k wait = true) :
    db'.unreported group = db.unreported group := by
  rw [Db.unreported, Db.unreported, hw, Table.count_filter]
  refine Table.count_congr fun kr _ => ?_
  by_cases h : kr.1.1 = group
  · simp [h, hp kr.1 kr.2 h]
  · simp [h]

end

/-! ## The invariant -/

structure Accounting (s : State) (l : Ledger) : Prop where
  /-- The foreign key of the wait rows. -/
  grouped : ∀ key idx wait, s.db.waits.get? (key, idx) = some wait → s.db.groups.get? key ≠ none
  balance : ∀ key group, s.db.groups.get? key = some group →
    group.remaining = s.db.unreported key
  indices : ∀ key group, s.db.groups.get? key = some group →
    ∀ idx, (s.db.waits.get? (key, idx)).isSome ↔ idx < l.counts key
  zeros : ∀ key group, s.db.groups.get? key = some group →
    l.zeros key = if group.remaining = 0 then 1 else 0

variable {s s' : State} {e : Event} {r : Reply} {l : Ledger}

theorem reportOf_of_reportedBy {now : Time} {report : Report} (h : ReportedBy s e now report) :
    s.reportOf e = some report := by
  rcases h with ⟨k, a, job, settle, visible, childReported, rfl, ha, hown, hrep, rfl⟩ |
    ⟨seen, skipped, rfl, rfl⟩
  · simp [State.reportOf, ha, hown, hrep]
  · rfl

/-- The wait tables after a reporting step. -/
theorem tables_of_reportOf {report : Report} (h : s.exec e = some (s', r))
    (hrep : s.reportOf e = some report) :
    ∃ now, s'.db.groups = (reportWaits now report s.db).groups ∧
      s'.db.waits = (reportWaits now report s.db).waits := by
  cases e with
  | settle now k settle visible =>
    obtain ⟨a, ha, hnow, -, ⟨hown, -⟩ | ⟨db, hsettle, rfl, -, -⟩⟩ := State.settle_cases h
    · simp [State.reportOf, ha, hown] at hrep
    obtain ⟨job, db₁, db₂, hown, hdb₁, hdb₂, rfl⟩ := settleJob_true hsettle
    simp only [State.reportOf, ha, hown, Option.isSome_some, if_true, Option.map_eq_some_iff] at hrep
    obtain ⟨childReported, hsome, rfl⟩ := hrep
    rcases hdb₂ with ⟨hnone, -⟩ | ⟨childReported', hsome', rfl⟩
    · simp [hsome] at hnone
    obtain rfl : childReported = childReported' := Option.some.inj (hsome.symm.trans hsome')
    refine ⟨now, ?_, ?_⟩ <;> rcases hdb₁ with rfl | ⟨outcome, rfl⟩ <;> simp <;> rfl
  | sweepLost now seen skipped =>
    obtain ⟨-, rfl⟩ := State.sweepLost_cases h
    obtain rfl : lostReport s.db seen skipped = report := by simpa [State.reportOf] using hrep
    exact ⟨now, rfl, rfl⟩
  | _ => cases hrep

/-- The wait tables after a step that creates a group. -/
theorem tables_of_creates {key : GroupKey} {call : WaitCall} (hwf : Wf s)
    (h : s.exec e = some (s', r)) (hc : s.creates e = some (key, call)) :
    ∃ now ids, s.db.groups.get? key = none ∧ ids.length = call.inputs.length ∧
      s'.db.groups = s.db.groups.insert key (call.newGroup now) ∧
      s'.db.waits = (insertWaits key ids s.db).waits := by
  cases e with
  | waitCommit id prepared =>
    simp only [State.creates] at hc
    split at hc
    · rename_i k now call' suspended htx
      simp only [Option.some.injEq, Prod.mk.injEq] at hc
      obtain ⟨rfl, rfl⟩ := hc
      have hnone : s.db.groups.get? (id, call'.waitId) = none := by
        obtain ⟨a, job, -, -, -, -, -, -, -, -, -, hfound⟩ := hwf.tx id _ htx
        simpa [findGroup] using hfound.symm
      obtain ⟨k', now', call₁, suspended', found, a, htx', ha, hprep, hcases⟩ :=
        State.waitCommit_cases h
      simp only [htx, Option.some.injEq, Tx.mk.injEq, TxStage.waitLooked.injEq] at htx'
      obtain ⟨rfl, rfl, rfl, rfl, rfl⟩ := htx'
      obtain ⟨hid, -⟩ := State.owned_of_tx hwf htx ha
      obtain ⟨-, -, err, herr⟩ | ⟨db, entered, hok, -, rfl⟩ := hcases
      · simp [enterWait_missing] at herr
      · rw [enterWait_missing, hid] at hok
        simp only [Except.ok.injEq, Prod.mk.injEq] at hok
        obtain ⟨rfl, rfl⟩ := hok
        obtain ⟨hgroups, hwaits, hlen⟩ := createWait_tables now (id, call'.waitId) hwf.idsBelow
          (hprep rfl).1
        exact ⟨now, _, hnone, hlen, by simpa using hgroups, by simpa using hwaits⟩
    · cases hc
  | _ => cases hc

/-- A step that creates a group. -/
private theorem accounting_created {key : GroupKey} {call : WaitCall} (hwf : Wf s)
    (hacc : Accounting s l) (h : s.exec e = some (s', r)) (hc : s.creates e = some (key, call)) :
    Accounting s' (Ledger.note s e s' l) := by
  obtain ⟨now, ids, hnone, hlen, hg, hw⟩ := tables_of_creates hwf h hc
  have habsent : ∀ idx, s.db.waits.get? (key, idx) = none := fun idx => by
    cases hget : s.db.waits.get? (key, idx) with
    | none => rfl
    | some wait => exact absurd hnone (hacc.grouped key idx wait hget)
  have hcount : ∀ group, s'.db.unreported group =
      s.db.unreported group + if key = group then ids.length else 0 := fun group => by
    rw [unreported_congr hw, unreported_insertWaits habsent]
  have hzero : s.db.unreported key = 0 := by
    rw [Db.unreported, Table.count_eq_zero_iff]
    rintro ⟨k, idx⟩ wait hget
    by_cases hk : k = key
    · simp [hk, habsent] at hget
    · simp [hk]
  refine ⟨fun k idx wait hget => ?_, fun k group hget => ?_, fun k group hget idx => ?_,
    fun k group hget => ?_⟩
  · rw [hg, Table.get?_insert]
    by_cases hk : k = key
    · simp [hk]
    · rw [hw, get?_insertWaits_ne hk] at hget
      simpa [hk] using hacc.grouped k idx wait hget
  all_goals
    rw [hg, Table.get?_insert] at hget
    by_cases hk : k = key
  · subst hk
    simp only [if_true, Option.some.injEq] at hget
    subst hget
    simp [hcount, hzero, hlen, WaitCall.newGroup]
  · rw [if_neg hk] at hget
    rw [hcount, if_neg (Ne.symm hk), hacc.balance k group hget]
    rfl
  · subst hk
    simp only [Ledger.note, hc, Function.update_self, hw, get?_insertWaits_self]
    cases hidx : ids[idx]? with
    | none =>
      have := List.getElem?_eq_none_iff.mp hidx
      simp [habsent]
      omega
    | some child =>
      have := (List.getElem?_eq_some_iff.mp hidx).1
      simp
      omega
  · rw [if_neg hk] at hget
    rw [hw, get?_insertWaits_ne hk]
    simpa only [Ledger.note, hc, Function.update_of_ne hk] using hacc.indices k group hget idx
  · subst hk
    simp only [if_true, Option.some.injEq] at hget
    subst hget
    have hpos := List.length_pos_iff.mpr call.nonempty
    simp [Ledger.note, hc, WaitCall.newGroup, call.nonempty]
  · rw [if_neg hk] at hget
    simp only [Ledger.note, hc, Function.update_of_ne hk]
    exact hacc.zeros k group hget

/-- A step that reports: counted rows, balances and zeros move together. -/
private theorem accounting_reported {report : Report} (hacc : Accounting s l)
    (h : s.exec e = some (s', r)) (hc : s.creates e = none) (hrep : s.reportOf e = some report) :
    Accounting s' (Ledger.note s e s' l) := by
  obtain ⟨now, hg, hw⟩ := tables_of_reportOf h hrep
  have hgroup : ∀ key group', s'.db.groups.get? key = some group' →
      ∃ group, s.db.groups.get? key = some group ∧
        group' = group.countDown (s.db.reported report key) := by
    intro key group' hget
    rw [hg, get?_reportWaits_groups] at hget
    obtain ⟨group, hget₀, rfl⟩ := Option.map_eq_some_iff.mp hget
    exact ⟨group, hget₀, rfl⟩
  have hcount : ∀ key, s.db.unreported key = s'.db.unreported key + s.db.reported report key :=
    fun key => by rw [unreported_congr hw, ← unreported_reportWaits]
  refine ⟨fun key idx wait hget => ?_, fun key group' hget => ?_, fun key group' hget idx => ?_,
    fun key group' hget => ?_⟩
  · rw [hw, get?_reportWaits_waits] at hget
    obtain ⟨wait₀, hget₀, -⟩ := Option.map_eq_some_iff.mp hget
    have hsome := hacc.grouped key idx wait₀ hget₀
    rw [hg, get?_reportWaits_groups]
    simpa using hsome
  · obtain ⟨group, hget₀, rfl⟩ := hgroup key group' hget
    have := hacc.balance key group hget₀
    have := hcount key
    simp only [Group.countDown]
    omega
  · obtain ⟨group, hget₀, rfl⟩ := hgroup key group' hget
    rw [hw, get?_reportWaits_waits]
    simpa [Ledger.note, hc, hrep] using hacc.indices key group hget₀ idx
  · obtain ⟨group, hget₀, rfl⟩ := hgroup key group' hget
    have hbal := hacc.balance key group hget₀
    have hzeros := hacc.zeros key group hget₀
    have hle := hcount key
    simp only [Ledger.note, hc, hrep, Db.countsToZero, hget₀, Option.any_some, Group.countDown,
      Bool.and_eq_true, decide_eq_true_eq]
    by_cases hpos : 0 < s.db.reported report key
    · -- The statement returns the group; it had unreported children until now.
      have hne : group.remaining ≠ 0 := by omega
      by_cases hz : group.remaining - (s.db.reported report key : ℤ) = 0 <;>
        simp [hpos, hzeros, hne, hz]
    · simp [hzeros, Nat.eq_zero_of_not_pos hpos]

/-- A step that neither creates a group nor reports moves, drops or keeps wait rows. -/
private theorem accounting_other (hwf : Wf s) (hacc : Accounting s l)
    (h : s.exec e = some (s', r)) (hc : s.creates e = none) (hrep : s.reportOf e = none) :
    Accounting s' (Ledger.note s e s' l) := by
  have hnote : Ledger.note s e s' l = l := by simp [Ledger.note, hc, hrep]
  rw [hnote]
  cases State.tables_change hwf h with
  | reported now report hnow hfree he => simp [reportOf_of_reportedBy he] at hrep
  | created he htx => subst he; simp [State.creates, htx] at hc
  | same hg hw =>
    refine ⟨fun key idx wait hget => ?_, fun key group hget => ?_, fun key group hget idx => ?_,
      fun key group hget => ?_⟩
    · rw [hw] at hget; rw [hg]; exact hacc.grouped key idx wait hget
    · rw [hg] at hget; rw [unreported_congr hw]; exact hacc.balance key group hget
    · rw [hg] at hget; rw [hw]; exact hacc.indices key group hget idx
    · rw [hg] at hget; exact hacc.zeros key group hget
  | retargeted he htx hr hwaited hg hw =>
    refine ⟨fun key idx wait hget => ?_, fun key group hget => ?_, fun key group hget idx => ?_,
      fun key group hget => ?_⟩
    · rw [hw, get?_retargetWaits] at hget
      obtain ⟨wait₀, hget₀, -⟩ := Option.map_eq_some_iff.mp hget
      rw [hg]; exact hacc.grouped key idx wait₀ hget₀
    · rw [hg] at hget
      rw [unreported_congr hw, unreported_retargetWaits]
      exact hacc.balance key group hget
    · rw [hg] at hget
      rw [hw, get?_retargetWaits, Option.isSome_map]
      exact hacc.indices key group hget idx
    · rw [hg] at hget; exact hacc.zeros key group hget
  | @deleted id _ _ _ call _ _ he htx hleave hr hg hw =>
    have hback : ∀ key group, s'.db.groups.get? key = some group →
        key ≠ (id, call.waitId) ∧ s.db.groups.get? key = some group := by
      intro key group hget
      rw [hg, get?_deleteGroup_groups] at hget
      split at hget
      · cases hget
      · rename_i hne; exact ⟨hne, hget⟩
    refine ⟨fun key idx wait hget => ?_, fun key group hget => ?_, fun key group hget idx => ?_,
      fun key group hget => ?_⟩
    · rw [hw, get?_deleteGroup_waits] at hget
      split at hget
      · cases hget
      · rename_i hne
        rw [hg, get?_deleteGroup_groups, if_neg hne]
        exact hacc.grouped key idx wait hget
    · obtain ⟨hne, hget⟩ := hback key group hget
      rw [unreported_filter (p := fun k _ => k.1 ≠ (id, call.waitId)) hw fun k wait hk => by
        simpa [hk] using hne]
      exact hacc.balance key group hget
    · obtain ⟨hne, hget⟩ := hback key group hget
      rw [hw, get?_deleteGroup_waits, if_neg hne]
      exact hacc.indices key group hget idx
    · exact hacc.zeros key group (hback key group hget).2
  | orphaned he hg hw =>
    have hback : ∀ key group, s'.db.groups.get? key = some group →
        (s.db.jobs.get? key.1).isSome ∧ s.db.groups.get? key = some group := by
      intro key group hget
      rw [hg] at hget
      simp only [sweepOrphans, Table.get?_filter, Option.filter_eq_some_iff] at hget
      exact ⟨hget.2, hget.1⟩
    refine ⟨fun key idx wait hget => ?_, fun key group hget => ?_, fun key group hget idx => ?_,
      fun key group hget => ?_⟩
    · rw [hw] at hget
      simp only [sweepOrphans, Table.get?_filter, Option.filter_eq_some_iff] at hget
      have hsome := hacc.grouped key idx wait hget.1
      rw [hg]
      cases hgroup : s.db.groups.get? key with
      | none => exact absurd hgroup hsome
      | some group => simp [sweepOrphans, hgroup, hget.2]
    · obtain ⟨hparent, hget⟩ := hback key group hget
      rw [unreported_filter (p := fun k _ => (s.db.jobs.get? k.1.1).isSome) hw fun k wait hk => by
        rw [hk]; exact hparent]
      exact hacc.balance key group hget
    · obtain ⟨hparent, hget⟩ := hback key group hget
      rw [hw]
      rw [← hacc.indices key group hget idx]
      simp only [sweepOrphans, Table.get?_filter]
      cases s.db.waits.get? (key, idx) with
      | none => simp
      | some wait => simp [hparent]
    · exact hacc.zeros key group (hback key group hget).2

theorem accounting_exec (hwf : Wf s) (hacc : Accounting s l) (h : s.exec e = some (s', r)) :
    Accounting s' (Ledger.note s e s' l) := by
  cases hc : s.creates e with
  | some created => exact accounting_created hwf hacc h hc
  | none =>
    cases hrep : s.reportOf e with
    | some report => exact accounting_reported hacc h hc hrep
    | none => exact accounting_other hwf hacc h hc hrep

theorem accounting_reachable (h : accounted.Reachable (s, l)) : Accounting s l := by
  have hinv := h.invariant (I := fun p => Wf p.1 ∧ Accounting p.1 p.2) ?_ ?_
  · exact hinv.2
  · rintro ⟨s, l⟩ ⟨hs, hl⟩
    obtain rfl : s = State.initial := hs
    refine ⟨State.wf_initial, fun _ _ _ h => ?_, fun _ _ h => ?_, fun _ _ h => ?_, fun _ _ h => ?_⟩
    all_goals cases h
  · rintro ⟨s, l⟩ e ⟨s', l'⟩ - ⟨hwf, hacc⟩ - hstep
    obtain ⟨hstep, hl'⟩ := TransitionSystem.observe_step_iff.mp hstep
    obtain ⟨r, hexec⟩ := system_step_iff.mp hstep
    simp only at hl'
    subst hl'
    exact ⟨State.wf_exec hwf hexec, accounting_exec hwf hacc hexec⟩

/-! ## Wait rows -/

private theorem Wait.reported_result {now : Time} {report : Report} {key : WaitKey} {wait : Wait}
    {result : Json} (h : wait.result = some result) :
    (Wait.reported now report key wait).result = some result := by
  simp [Wait.reported, Report.resolution, Wait.pending, h]

/-- A result that a row has stays. -/
theorem result_kept (hwf : Wf s) (hacc : Accounting s l) (h : s.exec e = some (s', r))
    {key : WaitKey} {wait wait' : Wait} {result : Json} (hget : s.db.waits.get? key = some wait)
    (hresult : wait.result = some result) (hget' : s'.db.waits.get? key = some wait') :
    wait'.result = some result := by
  obtain ⟨group, idx⟩ := key
  cases State.tables_change hwf h with
  | same hg hw =>
    rw [hw, hget] at hget'
    rw [← Option.some.inj hget', hresult]
  | reported now report hnow hfree he hg hw =>
    rw [hw, get?_reportWaits_waits, hget, Option.map_some, Option.some.injEq] at hget'
    rw [← hget', Wait.reported_result hresult]
  | @created id _ k now call suspended he htx hr hlen hg hw =>
    have hne : group ≠ (id, call.waitId) := by
      rintro rfl
      obtain ⟨a, job, -, -, -, -, -, -, -, -, -, hfound⟩ := hwf.tx id _ htx
      exact hacc.grouped _ idx wait hget (by simpa [findGroup] using hfound.symm)
    rw [hw, get?_insertWaits_ne hne, hget] at hget'
    rw [← Option.some.inj hget', hresult]
  | deleted he htx hleave hr hg hw =>
    rw [hw, get?_deleteGroup_waits] at hget'
    split at hget'
    · cases hget'
    · rw [hget] at hget'
      rw [← Option.some.inj hget', hresult]
  | retargeted he htx hr hwaited hg hw =>
    rw [hw, get?_retargetWaits, hget, Option.map_some, Option.some.injEq] at hget'
    subst hget'
    split <;> exact hresult
  | orphaned he hg hw =>
    rw [hw] at hget'
    simp only [sweepOrphans, Table.get?_filter, hget, Option.filter_eq_some_iff] at hget'
    rw [← Option.some.inj hget'.1, hresult]

/-- Rows are written without a result. -/
theorem result_of_new (hwf : Wf s) (h : s.exec e = some (s', r)) {key : WaitKey} {wait : Wait}
    (hget : s.db.waits.get? key = none) (hget' : s'.db.waits.get? key = some wait) :
    wait.result = none := by
  obtain ⟨group, idx⟩ := key
  cases State.tables_change hwf h with
  | same hg hw => simp [hw, hget] at hget'
  | reported now report hnow hfree he hg hw => simp [hw, hget] at hget'
  | @created id _ k now call suspended he htx hr hlen hg hw =>
    by_cases hgroup : group = (id, call.waitId)
    · subst hgroup
      rw [hw, get?_insertWaits_self] at hget'
      split at hget'
      · rw [← Option.some.inj hget']
      · simp [hget] at hget'
    · rw [hw, get?_insertWaits_ne hgroup, hget] at hget'
      cases hget'
  | deleted he htx hleave hr hg hw => simp [hw, hget] at hget'
  | retargeted he htx hr hwaited hg hw => simp [hw, hget] at hget'
  | orphaned he hg hw => simp [hw, sweepOrphans, Table.get?_filter, hget] at hget'

/--
In every state of every run: a group counts its rows without a result, it has one row per
input, one statement since its creation returned it with `remaining = 0` if it got there, and
the next step writes a row's result only once.
-/
theorem wait_accounting (hreach : accounted.Reachable (s, l)) :
    (∀ key group, s.db.groups.get? key = some group →
      group.remaining = s.db.unreported key ∧ 0 ≤ group.remaining ∧
      (∀ idx, (s.db.waits.get? (key, idx)).isSome ↔ idx < l.counts key) ∧
      l.zeros key = if group.remaining = 0 then 1 else 0) ∧
    ∀ e s' r, s.exec e = some (s', r) → ∀ key wait', s'.db.waits.get? key = some wait' →
      match s.db.waits.get? key with
      | none => wait'.result = none
      | some wait => ∀ result, wait.result = some result → wait'.result = some result := by
  have hrun : system.Reachable s := .of_observe (fun _ _ _ => trivial) hreach
  have hwf : Wf s := wf_reachable hrun
  have hacc := accounting_reachable hreach
  refine ⟨fun key group hget => ?_, fun e s' r h key wait' hget' => ?_⟩
  · have hbal := hacc.balance key group hget
    exact ⟨hbal, by omega, hacc.indices key group hget, hacc.zeros key group hget⟩
  · cases hget : s.db.waits.get? key with
    | none => exact result_of_new hwf h hget hget'
    | some wait => exact fun result hresult => result_kept hwf hacc h hget hresult hget'

/-! ## Two inputs, one child -/

namespace AccountingTrace

def options : ChildOptions := ⟨none, none, none, 25, none, none, none, .replace⟩

/-- The inputs share an idempotency key. -/
def call : WaitCall := ⟨"pages", "page", [some (.num 1), some (.num 1)], none, by simp⟩

/-- The parent waits, its child reports, and both rows take the report. -/
def reported : List Event :=
  [.addJob 0 ⟨"crawl", Payload.injectTraceContext none none, none, none, none, none, none, none,
      .replace⟩,
    .claim 0 "a" 1 false, .waitBegin 0 0 call, .waitLookup 1,
    .waitCommit 1 [.add options, .duplicate 2], .claim 0 "b" 2 false,
    .settle 0 1 ⟨none, some (.ok none), .delete⟩ fun _ => true]

end AccountingTrace

theorem wait_accounting_reported : ∃ p group, accounted.Reachable p ∧
    p.1.db.groups.get? (1, "pages") = some group ∧ group.remaining = 0 ∧
    group.remaining = p.1.db.unreported (1, "pages") ∧ p.2.zeros (1, "pages") = 1 := by
  have hinit : accounted.Init (State.initial, .empty) := ⟨rfl, rfl⟩
  obtain ⟨⟨s, l⟩, hreach, hp⟩ := TransitionSystem.exists_reachable_of_run
    AccountingTrace.reported
    (fun p => (p.1.db.groups.get? (1, "pages")).any fun group => group.remaining = 0)
    hinit (by decide)
  obtain ⟨group, hget, hzero⟩ := (Option.any_eq_true _ _).mp hp
  obtain ⟨hbal, -, -, hzeros⟩ := (wait_accounting hreach).1 _ group hget
  have hzero : group.remaining = 0 := of_decide_eq_true hzero
  exact ⟨(s, l), group, hreach, hget, hzero, hbal, by rw [hzeros, if_pos hzero]⟩

end BetterGraphileWorker
