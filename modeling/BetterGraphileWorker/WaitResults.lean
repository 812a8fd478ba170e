-- SUMMARY: Waits over whole runs: one batch of children for each wait of a logical job, and their reports in the order of its inputs.
import Mathlib.Data.List.Forall2
import Mathlib.Order.Basic
import BetterGraphileWorker.Accounting
import BetterGraphileWorker.Checkpoints

/-!
# Wait results

`enterWait` enqueues the children of a wait if it finds no group, and `finishWait` swaps the group
for a checkpoint. The log keeps what each group was created for, the reports in its rows, and what
the waits of a logical job have come to since its payload was last replaced.
-/

namespace BetterGraphileWorker

/-- The children that one call of a wait enqueued, in the order of its inputs. -/
structure WaitBatch where
  call : WaitCall
  children : List JobId
  deadline : Option Time

structure WaitLog where
  /-- What each group was created for. -/
  batch : GroupKey → Option WaitBatch
  /-- The report in a wait row, and the row of the child that it tells of. -/
  told : WaitKey → Option (JobId × ChildReport)
  /-- The batches of a wait of a logical job. -/
  enqueued : JobId → String → List WaitBatch
  /-- The checkpoint that such a wait ended with. -/
  ended : JobId → String → Option WaitCheckpoint
  /-- The job was continued while the group of such a wait was there. -/
  left : JobId → String → Bool

def WaitLog.start : WaitLog :=
  ⟨fun _ => none, fun _ => none, fun _ _ => [], fun _ _ => none, fun _ _ => false⟩

/-- The group that a step creates and the batch that it enqueues. -/
def State.batches (s : State) : Event → Option (GroupKey × WaitBatch)
  | .waitCommit id prepared =>
    match s.txs.get? id with
    | some ⟨_, now, .waitLooked call _ none⟩ =>
      some ((id, call.waitId), ⟨call, (createWait now (id, call.waitId) call prepared s.db).2,
        (call.newGroup now).deadline⟩)
    | _ => none
  | _ => none

/-- The group that a step swaps for a checkpoint. -/
def State.ends (s s' : State) : Event → Option (GroupKey × WaitCheckpoint)
  | .waitCommit id _ =>
    match s.txs.get? id with
    | some ⟨_, _, .waitLooked call _ (some group)⟩ =>
      if (s'.db.groups.get? (id, call.waitId)).isNone then
        some ((id, call.waitId), waitCheckpoint (group.remaining = 0) (s.db.waitsOf (id, call.waitId)))
      else none
    | _ => none
  | _ => none

/-- What a step writes into a wait row. -/
def State.tells (s : State) (e : Event) (key : WaitKey) : Option (JobId × ChildReport) :=
  (s.reportOf e).bind fun report => (s.db.waits.get? key).bind fun wait =>
    (report.resolution key wait).map (wait.child, ·)

/-- The group is that of the wait `i` of a logical job. -/
def Lineage.waitOf (l : Lineage) (root : JobId) (i : String) (key : GroupKey) : Bool :=
  l.root key.1 = root && key.2 = i

theorem Lineage.waitOf_iff {l : Lineage} {root : JobId} {i : String} {key : GroupKey} :
    l.waitOf root i key = true ↔ l.root key.1 = root ∧ key.2 = i := by
  simp [Lineage.waitOf]

def WaitLog.note (p : (State × Lineage) × Acks) (e : Event) (p' : (State × Lineage) × Acks)
    (w : WaitLog) : WaitLog :=
  let s := p.1.1
  let l := p.1.2
  let s' := p'.1.1
  { batch := match s.batches e with
      | some (key, batch) => Function.update w.batch key (some batch)
      | none => w.batch
    told := fun key => match s.batches e with
      | some (group, _) => if key.1 = group then none else w.told key
      | none => s.tells e key <|> w.told key
    enqueued := fun root i =>
      (if s.replacesRoot l s' root then [] else w.enqueued root i) ++
        ((s.batches e).filter fun b => l.waitOf root i b.1).toList.map (·.2)
    ended := fun root i =>
      if s.replacesRoot l s' root then none
      else ((s.ends s' e).filter fun c => l.waitOf root i c.1).map (·.2) <|> w.ended root i
    left := fun root i => !s.replacesRoot l s' root && (w.left root i ||
      (s.continues e s').any fun c => l.root c.1 = root && (s.db.groups.get? (c.1, i)).isSome) }

/-- The system with its lineage, the acknowledged checkpoints and the log of its waits. -/
def waitLogs : TransitionSystem (((State × Lineage) × Acks) × WaitLog) Event :=
  (acknowledged false).observe .start WaitLog.note

variable {s s' : State} {e : Event} {r : Reply} {id : JobId} {l : Lineage} {acks : Acks}
  {w : WaitLog} {key : GroupKey} {batch : WaitBatch} {i : String}

/-! ## Groups -/

theorem creates_of_batches (hb : s.batches e = some (key, batch)) :
    s.creates e = some (key, batch.call) := by
  cases e with
  | waitCommit id prepared =>
    simp only [State.batches] at hb
    split at hb
    · rename_i htx
      simp only [Option.some.injEq, Prod.mk.injEq] at hb
      obtain ⟨rfl, rfl⟩ := hb
      simp only [State.creates, htx]
    · cases hb
  | _ => cases hb

/-- Everything that the commit of a wait's first call does to the wait tables. -/
structure Enqueues (s : State) (e : Event) (s' : State) (key : GroupKey) (batch : WaitBatch) :
    Prop where
  new : s.db.groups.get? key = none
  length : batch.children.length = batch.call.inputs.length
  groups : ∃ group, group.deadline = batch.deadline ∧ s'.db.groups = s.db.groups.insert key group
  waits : s'.db.waits = (insertWaits key batch.children s.db).waits
  below : ∀ child ∈ batch.children, child < s'.db.nextId

theorem enqueues_of_batches (hwf : Wf s) (h : s.exec e = some (s', r))
    (hb : s.batches e = some (key, batch)) : Enqueues s e s' key batch := by
  obtain ⟨_, _, hnone, -, hgroup, -⟩ := tables_of_creates hwf h (creates_of_batches hb)
  have hsome : (s'.db.groups.get? key).isSome = true := by simp [hgroup]
  cases e with
  | waitCommit id prepared =>
    simp only [State.batches] at hb
    split at hb
    · rename_i now call suspended htx
      simp only [Option.some.injEq, Prod.mk.injEq] at hb
      obtain ⟨rfl, rfl⟩ := hb
      cases State.tables_change hwf h with
      | same hg hw => simp [hg, hnone] at hsome
      | reported now report hnow hfree he hg hw => simp [hg, hnone] at hsome
      | created he htx' hr hlen hg hw hchild =>
        obtain ⟨rfl, rfl⟩ := Event.waitCommit.inj he
        simp only [htx, Option.some.injEq, Tx.mk.injEq, TxStage.waitLooked.injEq] at htx'
        obtain ⟨rfl, rfl, rfl, rfl, -⟩ := htx'
        exact ⟨hnone, hlen, ⟨_, rfl, hg⟩, hw, fun child hmem => (hchild child hmem).1⟩
      | deleted he htx' =>
        obtain ⟨rfl, rfl⟩ := Event.waitCommit.inj he
        simp [htx] at htx'
      | retargeted he => cases he
      | orphaned he => cases he
    · cases hb
  | _ => cases hb

/-- A wait that ends: its transaction, its checkpoint, and the row and the store with it. -/
theorem finishes_of_ends (hwf : Wf s) (h : s.exec e = some (s', r)) {checkpoint : WaitCheckpoint}
    (hends : s.ends s' e = some (key, checkpoint)) :
    s'.db.groups.get? key = none ∧ ∃ k now call suspended group a job prepared,
      e = .waitCommit key.1 prepared ∧ key.2 = call.waitId ∧
      Finishes s key.1 s' k now call suspended group a job checkpoint := by
  cases e with
  | waitCommit id prepared =>
    simp only [State.ends] at hends
    split at hends
    · rename_i now call suspended group htx
      split at hends
      · rename_i hgone
        simp only [Option.some.injEq, Prod.mk.injEq] at hends
        obtain ⟨rfl, rfl⟩ := hends
        obtain ⟨a, -, -, -, -, -, -, -, -, -, -, hfound⟩ := hwf.tx _ _ htx
        obtain ⟨row, hrow, -⟩ := Option.map_eq_some_iff.mp hfound.symm
        refine ⟨by simpa using hgone, ?_⟩
        cases State.tables_change hwf h with
        | same hg hw => simp [hg, hrow] at hgone
        | reported now report hnow hfree he hg hw => simp [hg, hrow] at hgone
        | created he htx' =>
          obtain ⟨rfl, rfl⟩ := Event.waitCommit.inj he
          simp [htx] at htx'
        | deleted he htx' hleave hr hg hw =>
          obtain ⟨rfl, rfl⟩ := Event.waitCommit.inj he
          subst hr
          simp only [htx, Option.some.injEq, Tx.mk.injEq, TxStage.waitLooked.injEq] at htx'
          obtain ⟨rfl, rfl, rfl, rfl, rfl⟩ := htx'
          obtain ⟨k, now, call', suspended, group, a, job, hfin⟩ := finishes_of_commit hwf h
          have hcall : call' = call := by
            have heq := hfin.tx.symm.trans htx
            simp only [Option.some.injEq, Tx.mk.injEq, TxStage.waitLooked.injEq] at heq
            exact heq.2.2.1
          exact ⟨k, now, call', suspended, group, a, job, prepared, rfl, by rw [hcall], hfin⟩
        | retargeted he => cases he
        | orphaned he => cases he
      · cases hends
    · cases hends
  | _ => cases hends

/-- A group is new, or was there with its deadline. -/
theorem group_origin (hwf : Wf s) (h : s.exec e = some (s', r)) {group' : Group}
    (hget' : s'.db.groups.get? key = some group') :
    (∃ batch, s.batches e = some (key, batch)) ∨
      ∃ group, s.db.groups.get? key = some group ∧ group'.deadline = group.deadline := by
  cases State.tables_change hwf h with
  | same hg hw | retargeted he htx hr hwaited hg hw => exact .inr ⟨group', hg ▸ hget', rfl⟩
  | reported now report hnow hfree he hg hw =>
    rw [hg, get?_reportWaits_groups] at hget'
    obtain ⟨group, hget, rfl⟩ := Option.map_eq_some_iff.mp hget'
    exact .inr ⟨group, hget, rfl⟩
  | created he htx hr hlen hg hw =>
    rw [hg, Table.get?_insert] at hget'
    split at hget'
    · rename_i hkey
      exact .inl ⟨_, by simp [he, hkey, State.batches, htx]; rfl⟩
    · exact .inr ⟨group', hget', rfl⟩
  | deleted he htx hleave hr hg hw =>
    rw [hg, get?_deleteGroup_groups] at hget'
    split at hget'
    · cases hget'
    · exact .inr ⟨group', hget', rfl⟩
  | orphaned he hg hw =>
    simp only [hg, sweepOrphans, Table.get?_filter, Option.filter_eq_some_iff] at hget'
    exact .inr ⟨group', hget'.1, rfl⟩

/-- A group stays until its wait ends or its parent is gone. -/
theorem group_gone (hwf : Wf s) (h : s.exec e = some (s', r))
    (hget : (s.db.groups.get? key).isSome = true) (hget' : s'.db.groups.get? key = none) :
    (∃ checkpoint, s.ends s' e = some (key, checkpoint)) ∨ s.db.jobs.get? key.1 = none := by
  cases State.tables_change hwf h with
  | same hg hw | retargeted he htx hr hwaited hg hw => simp [← hg, hget'] at hget
  | reported now report hnow hfree he hg hw =>
    rw [hg, get?_reportWaits_groups, Option.map_eq_none_iff] at hget'
    simp [hget'] at hget
  | created he htx hr hlen hg hw =>
    rw [hg, Table.get?_insert] at hget'
    split at hget'
    · cases hget'
    · simp [hget'] at hget
  | deleted he htx hleave hr hg hw =>
    rw [hg, get?_deleteGroup_groups] at hget'
    split at hget'
    · rename_i hkey
      exact .inl ⟨_, by simp [he, hkey, State.ends, htx, hg]; rfl⟩
    · simp [hget'] at hget
  | orphaned he hg hw =>
    obtain ⟨group, hgroup⟩ := Option.isSome_iff_exists.mp hget
    cases hrow : s.db.jobs.get? key.1 with
    | none => exact .inr rfl
    | some job => simp [hg, sweepOrphans, hgroup, hrow] at hget'

/-- Rows that were there keep their root. -/
theorem root_kept (hwf : Wf s) (h : s.exec e = some (s', r)) (hid : id < s.db.nextId) :
    (l.note s e s').root id = l.root id := by
  rcases continues_cases hwf h with ⟨hnone, -⟩ | ⟨_, _, _, _, _, _, _, _, -, hsome, -⟩
  · simp [Lineage.note, hnone]
  · simp [Lineage.note, hsome, Function.update_of_ne hid.ne]

/-! ## Rows -/

/-- The row of a child: it tells of a row of that child or of its continuations, if of any. -/
def WaitLog.Row (s : State) (l : Lineage) (w : WaitLog) (batch : WaitBatch) (key : WaitKey) : Prop :=
  match batch.children[key.2]? with
  | none => s.db.waits.get? key = none
  | some child => child < s.db.nextId ∧ ∃ wait, s.db.waits.get? key = some wait ∧
      l.root wait.child = l.root child ∧ wait.result = (w.told key).map (·.2.toJson) ∧
      ∀ t ∈ w.told key, t.1 = wait.child

/-- A group has the rows of the batch that it was created for, and its deadline. -/
def WaitLog.Rows (s : State) (l : Lineage) (w : WaitLog) : Prop :=
  ∀ key group, s.db.groups.get? key = some group → ∃ batch, w.batch key = some batch ∧
    batch.children.length = batch.call.inputs.length ∧ group.deadline = batch.deadline ∧
    ∀ idx, w.Row s l batch (key, idx)

/-- A wait row and what is told of it, after a step. -/
structure RowStep (s s' : State) (l l' : Lineage) (w w' : WaitLog) (key : WaitKey) : Prop where
  absent : s.db.waits.get? key = none → s'.db.waits.get? key = none
  row : ∀ wait, s.db.waits.get? key = some wait → wait.result = (w.told key).map (·.2.toJson) →
    (∀ t ∈ w.told key, t.1 = wait.child) → ∃ wait', s'.db.waits.get? key = some wait' ∧
      l'.root wait'.child = l.root wait.child ∧ wait'.result = (w'.told key).map (·.2.toJson) ∧
      ∀ t ∈ w'.told key, t.1 = wait'.child

theorem WaitLog.Row.step {l' : Lineage} {w' : WaitLog} {key : WaitKey} (hrow : w.Row s l batch key)
    (hstep : RowStep s s' l l' w w' key) (hle : s.db.nextId ≤ s'.db.nextId)
    (hroot : ∀ id, id < s.db.nextId → l'.root id = l.root id) : w'.Row s' l' batch key := by
  unfold WaitLog.Row at hrow ⊢
  split
  · rename_i hchild
    rw [hchild] at hrow
    exact hstep.absent hrow
  · rename_i child hchild
    rw [hchild] at hrow
    obtain ⟨hbelow, wait, hget, hsame, hresult, htold⟩ := hrow
    obtain ⟨wait', hget', hsame', hrest⟩ := hstep.row wait hget hresult htold
    exact ⟨hbelow.trans_le hle, wait', hget', by rw [hsame', hsame, hroot child hbelow], hrest⟩

section
variable (hwf : Wf s) (hlin : Lineage.Inv s l) (h : s.exec e = some (s', r)) {key : WaitKey}
include hwf hlin h

/-- A row that is kept with its child, while nothing is told. -/
private theorem rowStep_same {w' : WaitLog} (hget : s'.db.waits.get? key = s.db.waits.get? key)
    (htold : w'.told key = w.told key) : RowStep s s' l (l.note s e s') w w' key := by
  refine ⟨fun hnone => by rw [hget, hnone], fun wait hwait hresult hof => ⟨wait, by rw [hget, hwait],
    root_kept hwf h (hlin.children key wait hwait), by rw [htold, hresult], by rw [htold]; exact hof⟩⟩

/-- A report is told of the rows that it resolves. -/
private theorem rowStep_reported {w' : WaitLog} {report : Report} (hrep : s.reportOf e = some report)
    (htold : w'.told key = (s.tells e key <|> w.told key)) :
    RowStep s s' l (l.note s e s') w w' key := by
  obtain ⟨now, -, hw⟩ := tables_of_reportOf h hrep
  refine ⟨fun hnone => by rw [hw, get?_reportWaits_waits, hnone]; rfl, fun wait hwait hresult hof => ?_⟩
  have hroot := root_kept (l := l) hwf h (hlin.children key wait hwait)
  have htells : s.tells e key = (report.resolution key wait).map (wait.child, ·) := by
    simp [State.tells, hrep, hwait]
  refine ⟨_, by rw [hw, get?_reportWaits_waits, hwait]; rfl, by rw [Wait.reported_child, hroot], ?_⟩
  rw [htold, htells, Wait.reported]
  cases hresolved : report.resolution key wait with
  | none => exact ⟨hresult, hof⟩
  | some resolved => simp [Wait.setResult]

/-- An unresolved row moves along with its child. -/
private theorem rowStep_retargeted {w' : WaitLog} {next : JobId}
    (hroot : (l.note s e s').root next = l.root id)
    (hw : s'.db.waits = (retargetWaits id next s.db).waits) (htold : w'.told key = w.told key) :
    RowStep s s' l (l.note s e s') w w' key := by
  refine ⟨fun hnone => by rw [hw, get?_retargetWaits, hnone]; rfl, fun wait hwait hresult hof => ?_⟩
  refine ⟨_, by rw [hw, get?_retargetWaits, hwait]; rfl, ?_⟩
  rw [htold]
  dsimp only
  split
  · rename_i hmoved
    have hnone : w.told key = none := by
      cases ht : w.told key with
      | none => rfl
      | some t => simp [Wait.pending, hresult, ht] at hmoved
    exact ⟨by rw [hroot, hmoved.1], by simpa [hnone] using hresult, by simp [hnone]⟩
  · exact ⟨root_kept hwf h (hlin.children key wait hwait), hresult, hof⟩

/-- The row of a group that stays. -/
private theorem rowStep (hb : s.batches e = none) (hgroup : (s'.db.groups.get? key.1).isSome = true)
    {w' : WaitLog} (htold : w'.told key = (s.tells e key <|> w.told key)) :
    RowStep s s' l (l.note s e s') w w' key := by
  cases hrep : s.reportOf e with
  | some report => exact rowStep_reported hwf hlin h hrep htold
  | none =>
    have htold : w'.told key = w.told key := by simpa [State.tells, hrep] using htold
    cases State.tables_change hwf h with
    | reported now report hnow hfree he => simp [reportOf_of_reportedBy he] at hrep
    | created he htx => simp [he, State.batches, htx] at hb
    | same hg hw => exact rowStep_same hwf hlin h (by rw [hw]) htold
    | @retargeted id _ _ _ _ _ _ he htx hr hwaited hg hw =>
      refine rowStep_retargeted hwf hlin h (?_ : _ = l.root id) hw htold
      rcases continues_cases hwf h with ⟨-, hrefused⟩ | ⟨id', _, _, _, _, _, _, _, he', hsome, -⟩
      · simp [hrefused id he] at hr
      · obtain rfl := Event.continueCommit.inj (he.symm.trans he')
        simp [Lineage.note, hsome]
    | @deleted id _ _ _ call _ _ he htx hleave hr hg hw =>
      have hne : key.1 ≠ (id, call.waitId) := by
        intro hkey
        simp [hg, hkey] at hgroup
      exact rowStep_same hwf hlin h (by rw [hw, get?_deleteGroup_waits, if_neg hne]) htold
    | orphaned he hg hw =>
      have hparent : (s.db.jobs.get? key.1.1).isSome = true := by
        obtain ⟨group, hget⟩ := Option.isSome_iff_exists.mp hgroup
        simp only [hg, sweepOrphans, Table.get?_filter, Option.filter_eq_some_iff] at hget
        exact hget.2
      refine rowStep_same hwf hlin h ?_ htold
      cases hget : s.db.waits.get? key <;> simp [hw, sweepOrphans, hget, hparent]

end

/-- A group that a step creates has the rows of its batch. -/
private theorem row_created {ledger : Ledger} {l' : Lineage} {w' : WaitLog} (hacc : Accounting s ledger)
    (henq : Enqueues s e s' key batch) (idx : ℕ) (htold : w'.told (key, idx) = none) :
    w'.Row s' l' batch (key, idx) := by
  unfold WaitLog.Row
  rw [henq.waits, get?_insertWaits_self, htold]
  cases hchild : batch.children[idx]? with
  | none =>
    cases hget : s.db.waits.get? (key, idx) with
    | none => rfl
    | some wait => exact absurd henq.new (hacc.grouped key idx wait hget)
  | some child =>
    exact ⟨henq.below child (List.mem_of_getElem? hchild), _, rfl, rfl, rfl, by simp⟩

theorem WaitLog.rows_exec (hwf : Wf s) (hlin : Lineage.Inv s l) (h : s.exec e = some (s', r))
    {ledger : Ledger} (hacc : Accounting s ledger) (hrows : w.Rows s l) {acks' : Acks} :
    (WaitLog.note ((s, l), acks) e ((s', l.note s e s'), acks') w).Rows s' (l.note s e s') := by
  intro key group' hget'
  have hle := (State.db_ok hwf h).1
  cases hb : s.batches e with
  | none =>
    rcases group_origin hwf h hget' with ⟨batch, hnew⟩ | ⟨group, hget, hdeadline⟩
    · simp [hb] at hnew
    obtain ⟨batch, hbatch, hlength, hsame, hrow⟩ := hrows key group hget
    refine ⟨batch, by simpa [WaitLog.note, hb] using hbatch, hlength, hdeadline.trans hsame,
      fun idx => ?_⟩
    refine (hrow idx).step (rowStep hwf hlin h hb (by simp [hget']) ?_) hle
      fun id hid => root_kept hwf h hid
    simp [WaitLog.note, hb]
  | some new =>
    obtain ⟨created, batch⟩ := new
    have henq := enqueues_of_batches hwf h hb
    obtain ⟨group, hdeadline, hgroups⟩ := henq.groups
    rw [hgroups, Table.get?_insert] at hget'
    split at hget'
    · rename_i hkey
      subst hkey
      obtain rfl := Option.some.inj hget'
      exact ⟨batch, by simp [WaitLog.note, hb], henq.length, hdeadline,
        fun idx => row_created hacc henq idx (by simp [WaitLog.note, hb])⟩
    · rename_i hkey
      obtain ⟨old, hbatch, hlength, hsame, hrow⟩ := hrows key group' hget'
      refine ⟨old, by simp [WaitLog.note, hb, hkey, hbatch], hlength, hsame, fun idx => ?_⟩
      have hget : s'.db.waits.get? (key, idx) = s.db.waits.get? (key, idx) := by
        rw [henq.waits, get?_insertWaits_ne hkey]
      exact (hrow idx).step (rowStep_same hwf hlin h hget (by simp [WaitLog.note, hb, hkey])) hle
        fun id hid => root_kept hwf h hid

/-! ## The rows of a group in order -/

private theorem lt_bound_iff (keys : List WaitKey) (idx : ℕ) :
    idx < keys.foldr (fun k n => max (k.2 + 1) n) 0 ↔ ∃ k ∈ keys, idx ≤ k.2 := by
  induction keys with
  | nil => simp
  | cons k keys ih =>
    rw [List.foldr_cons, lt_max_iff, ih, Nat.lt_succ_iff]
    simp

/-- Rows at the indices below `n`, and no others. -/
theorem waitsOf_eq {db : Db} {n : ℕ} (h : ∀ idx, (db.waits.get? (key, idx)).isSome ↔ idx < n) :
    db.waitsOf key = (List.range n).filterMap fun idx => db.waits.get? (key, idx) := by
  have hbound : (db.waits.keys fun k _ => k.1 = key).foldr (fun k n => max (k.2 + 1) n) 0 = n := by
    refine eq_of_forall_lt_iff fun idx => ?_
    rw [lt_bound_iff]
    constructor
    · rintro ⟨⟨group, idx'⟩, hmem, hle⟩
      obtain ⟨wait, hget, hgroup⟩ := Table.mem_keys.mp hmem
      obtain rfl : group = key := of_decide_eq_true hgroup
      exact hle.trans_lt ((h idx').mp (by rw [hget]; rfl))
    · intro hidx
      obtain ⟨wait, hget⟩ := Option.isSome_iff_exists.mp ((h idx).mpr hidx)
      exact ⟨(key, idx), Table.mem_keys.mpr ⟨wait, hget, decide_eq_true rfl⟩, le_refl idx⟩
  rw [Db.waitsOf, hbound]

theorem forall₂_filterMap {α β : Type*} {P : α × ℕ → β → Prop} {f : ℕ → Option β} (l : List α) (k : ℕ)
    (h : ∀ idx (hidx : idx < l.length), ∃ b, f (k + idx) = some b ∧ P (l[idx], k + idx) b) :
    List.Forall₂ P (l.zipIdx k) ((List.range' k l.length).filterMap f) := by
  induction l generalizing k with
  | nil => exact .nil
  | cons a l ih =>
    obtain ⟨b, hb, hP⟩ := h 0 (Nat.zero_lt_succ _)
    rw [Nat.add_zero] at hb
    rw [List.zipIdx_cons, List.length_cons, List.range'_succ, List.filterMap_cons_some hb]
    refine .cons hP (ih (k + 1) fun idx hidx => ?_)
    obtain ⟨b, hb, hP⟩ := h (idx + 1) (Nat.succ_lt_succ hidx)
    rw [Nat.add_right_comm, Nat.add_assoc]
    exact ⟨b, hb, hP⟩

/-- A child of a batch and its row. -/
def WaitLog.Shows (s : State) (l : Lineage) (w : WaitLog) (key : GroupKey) (child : JobId × ℕ)
    (wait : Wait) : Prop :=
  s.db.waits.get? (key, child.2) = some wait ∧ l.root wait.child = l.root child.1 ∧
    wait.result = (w.told (key, child.2)).map (·.2.toJson) ∧
    ∀ t ∈ w.told (key, child.2), t.1 = wait.child

theorem row_isSome (hrow : ∀ idx, w.Row s l batch (key, idx)) (idx : ℕ) :
    (s.db.waits.get? (key, idx)).isSome ↔ idx < batch.children.length := by
  have hidx := hrow idx
  unfold WaitLog.Row at hidx
  split at hidx
  · rename_i hnone
    simp [hidx, List.getElem?_eq_none_iff.mp hnone]
  · rename_i child hchild
    obtain ⟨-, wait, hget, -⟩ := hidx
    simp [hget, (List.getElem?_eq_some_iff.mp hchild).1]

theorem mem_waitsOf (hrow : ∀ idx, w.Row s l batch (key, idx)) {wait : Wait} :
    wait ∈ s.db.waitsOf key ↔ ∃ idx, s.db.waits.get? (key, idx) = some wait := by
  rw [waitsOf_eq (row_isSome hrow), List.mem_filterMap]
  refine exists_congr fun idx => and_iff_right_of_imp fun hget => ?_
  rw [List.mem_range, ← row_isSome hrow, hget]
  rfl

/-- The rows of a group are its batch in order. -/
theorem shows_of_rows (hrow : ∀ idx, w.Row s l batch (key, idx)) :
    List.Forall₂ (w.Shows s l key) batch.children.zipIdx (s.db.waitsOf key) := by
  rw [waitsOf_eq (row_isSome hrow), List.range_eq_range']
  refine forall₂_filterMap batch.children 0 fun idx hidx => ?_
  have hrow := hrow idx
  unfold WaitLog.Row at hrow
  rw [List.getElem?_eq_getElem hidx] at hrow
  obtain ⟨-, wait, hget, hroot, hresult, hof⟩ := hrow
  rw [Nat.zero_add]
  exact ⟨wait, hget, hget, hroot, hresult, hof⟩

/-- A group is counted down to zero when all of its rows have a result. -/
theorem remaining_eq_zero_iff {ledger : Ledger} (hacc : Accounting s ledger) {group : Group}
    (hget : s.db.groups.get? key = some group) (hrow : ∀ idx, w.Row s l batch (key, idx)) :
    group.remaining = 0 ↔ ∀ wait ∈ s.db.waitsOf key, wait.pending = false := by
  rw [hacc.balance key group hget, Int.natCast_eq_zero, Db.unreported, Table.count_eq_zero_iff]
  constructor
  · intro hnone wait hmem
    obtain ⟨idx, hwait⟩ := (mem_waitsOf hrow).mp hmem
    simpa using hnone (key, idx) wait hwait
  · rintro hdone ⟨group, idx⟩ wait hwait
    by_cases hgroup : group = key
    · subst hgroup
      simpa using hdone wait ((mem_waitsOf hrow).mpr ⟨idx, hwait⟩)
    · simp [hgroup]

/-- The reports told of the children, in the order of the inputs. -/
def WaitLog.Reports (l : Lineage) (w : WaitLog) (key : GroupKey) (batch : WaitBatch)
    (reports : List (JobId × ChildReport)) : Prop :=
  List.Forall₂ (fun child report => w.told (key, child.2) = some report ∧
    l.root report.1 = l.root child.1) batch.children.zipIdx reports

/-- The children of which nothing is told, in the order of the inputs. -/
def WaitLog.Unreported (l : Lineage) (w : WaitLog) (key : GroupKey) (batch : WaitBatch)
    (pending : List JobId) : Prop :=
  pending ≠ [] ∧ pending.map l.root =
    (batch.children.zipIdx.filter fun child => (w.told (key, child.2)).isNone).map (l.root ·.1)

private theorem reports_of_shows {children : List (JobId × ℕ)} {waits : List Wait}
    (h : List.Forall₂ (w.Shows s l key) children waits) (hdone : ∀ wait ∈ waits, wait.pending = false) :
    ∃ reports : List (JobId × ChildReport),
      List.Forall₂ (fun child report => w.told (key, child.2) = some report ∧
        l.root report.1 = l.root child.1) children reports ∧
      waits.map (fun wait => (wait.child, wait.result.getD .null)) =
        reports.map fun report => (report.1, report.2.toJson) := by
  induction h with
  | nil => exact ⟨[], .nil, rfl⟩
  | @cons child wait children waits hshows h ih =>
    obtain ⟨reports, hreports, hmap⟩ := ih fun wait hmem => hdone wait (List.mem_cons_of_mem _ hmem)
    obtain ⟨-, hroot, hresult, hof⟩ := hshows
    have hpending := hdone wait List.mem_cons_self
    cases htold : w.told (key, child.2) with
    | none => simp [Wait.pending, hresult, htold] at hpending
    | some report =>
      have hchild := hof report htold
      refine ⟨report :: reports, .cons ⟨htold, by rw [hchild, hroot]⟩ hreports, ?_⟩
      rw [List.map_cons, List.map_cons, hmap, hresult, htold, hchild]
      rfl

private theorem unreported_of_shows {children : List (JobId × ℕ)} {waits : List Wait}
    (h : List.Forall₂ (w.Shows s l key) children waits) :
    ((waits.filter (·.pending)).map (·.child)).map l.root =
      (children.filter fun child => (w.told (key, child.2)).isNone).map (l.root ·.1) := by
  induction h with
  | nil => rfl
  | @cons child wait children waits hshows h ih =>
    obtain ⟨-, hroot, hresult, -⟩ := hshows
    have hpending : wait.pending = (w.told (key, child.2)).isNone := by
      rw [Wait.pending, hresult]
      cases w.told (key, child.2) <;> rfl
    rw [List.filter_cons, List.filter_cons, hpending]
    split
    · rw [List.map_cons, List.map_cons, List.map_cons, ih, hroot]
    · exact ih

/-! ## What a wait returns -/

theorem exists_accounting {cond : State → Event → Prop} (hreach : system.ReachableWith cond s) :
    ∃ ledger, Accounting s ledger := by
  obtain ⟨ledger, hledger⟩ := hreach.reachable.exists_observe .empty Ledger.note
  exact ⟨ledger, accounting_reachable hledger⟩

/-- The runs of the log are runs of the acknowledged checkpoints. -/
theorem waitLogs_reachable {q : ((State × Lineage) × Acks) × WaitLog}
    (hreach : waitLogs.ReachableWith (fun q e => LockTimesDiffer q.1.1.1 e) q) :
    system.ReachableWith (fun s e => LockTimesDiffer s e) q.1.1.1 ∧
      Wf q.1.1.1 ∧ DistinctLocks q.1.1.1 ∧ Lineage.Inv q.1.1.1 q.1.1.2 ∧
      Acks.Inv q.1.1.1 q.1.1.2 q.1.2 := by
  have hacks : (acknowledged false).ReachableWith (fun p e => LockTimesDiffer p.1.1 e) q.1 :=
    .of_observe (fun _ _ hc => hc) hreach
  have hlineage : lineage.ReachableWith (fun p e => LockTimesDiffer p.1 e) q.1.1 :=
    .of_observe (fun _ _ hc => hc) hacks
  exact ⟨.of_observe (fun _ _ hc => hc) hlineage,
    Acks.inv_reachable (fun _ _ hc => hc) (fun hlate => by cases hlate) hacks⟩

theorem waitLogs_step {q q' : ((State × Lineage) × Acks) × WaitLog}
    (hstep : waitLogs.step q e = some q') : ∃ r, q.1.1.1.exec e = some (q'.1.1.1, r) ∧
      q'.1.1.2 = q.1.1.2.note q.1.1.1 e q'.1.1.1 ∧ q'.1.2 = Acks.note false q.1.1 e q'.1.1 q.1.2 ∧
      q'.2 = WaitLog.note q.1 e q'.1 q.2 := by
  obtain ⟨hstep, hw⟩ := TransitionSystem.observe_step_iff.mp hstep
  obtain ⟨hstep, hacks⟩ := TransitionSystem.observe_step_iff.mp hstep
  obtain ⟨hstep, hl⟩ := TransitionSystem.observe_step_iff.mp hstep
  obtain ⟨r, hexec⟩ := system_step_iff.mp hstep
  exact ⟨r, hexec, hl, hacks, hw⟩

theorem WaitLog.rows_reachable {q : ((State × Lineage) × Acks) × WaitLog}
    (hreach : waitLogs.ReachableWith (fun q e => LockTimesDiffer q.1.1.1 e) q) :
    q.2.Rows q.1.1.1 q.1.1.2 := by
  refine hreach.invariant (I := fun q => q.2.Rows q.1.1.1 q.1.1.2) ?_ ?_
  · rintro ⟨⟨⟨s, l⟩, acks⟩, w⟩ ⟨⟨⟨hs, -⟩, -⟩, -⟩
    obtain rfl : s = State.initial := hs
    intro key group hget
    cases hget
  · rintro ⟨⟨⟨s, l⟩, acks⟩, w⟩ e ⟨⟨⟨s', l'⟩, acks'⟩, w'⟩ hreach hrows - hstep
    obtain ⟨r, hexec, hl, -, hw⟩ := waitLogs_step hstep
    obtain ⟨hsystem, hwf, -, hlin, -⟩ := waitLogs_reachable hreach
    obtain ⟨ledger, hacc⟩ := exists_accounting hsystem
    simp only at hexec hl hw hrows hwf hlin hacc
    subst hl hw
    exact WaitLog.rows_exec hwf hlin hexec hacc hrows

section
variable {V : Type*}

/-- What a wait that ends makes of the batch of its group. -/
theorem answer_of_rows {ledger : Ledger} {group : Group} (queue : QueueContract V)
    (hacc : Accounting s ledger) (hget : s.db.groups.get? key = some group)
    (hrow : ∀ idx, w.Row s l batch (key, idx)) :
    (∃ reports, w.Reports l key batch reports ∧ decodeWaitCheckpoint key.2 queue
        (waitCheckpoint (group.remaining = 0) (s.db.waitsOf key)).toJson =
      reports.mapM fun report => report.2.result queue report.1) ∨
    group.remaining ≠ 0 ∧ ∃ pending, w.Unreported l key batch pending ∧ decodeWaitCheckpoint key.2 queue
        (waitCheckpoint (group.remaining = 0) (s.db.waitsOf key)).toJson =
      .error (.timeout key.2 (pending.map toString)) := by
  have hshows := shows_of_rows hrow
  have hdone := remaining_eq_zero_iff hacc hget hrow
  by_cases hzero : group.remaining = 0
  · obtain ⟨reports, hreports, hmap⟩ := reports_of_shows hshows (hdone.mp hzero)
    refine .inl ⟨reports, hreports, ?_⟩
    rw [waitCheckpoint, if_pos (decide_eq_true hzero), hmap]
    exact decodeWaitCheckpoint_results key.2 queue reports
  · refine .inr ⟨hzero, _, ⟨fun hnil => hzero (hdone.mpr fun wait hmem => ?_),
      unreported_of_shows hshows⟩, ?_⟩
    · exact Bool.eq_false_iff.mpr (List.filter_eq_nil_iff.mp (List.map_eq_nil_iff.mp hnil) wait hmem)
    · rw [waitCheckpoint, if_neg (by simpa using hzero)]
      exact decodeWaitCheckpoint_timedOut key.2 queue _

end

/-! ## One batch -/

structure WaitLog.Once (s : State) (l : Lineage) (acks : Acks) (w : WaitLog) : Prop where
  fresh : ∀ root i, s.db.nextId ≤ root → w.enqueued root i = [] ∧ w.ended root i = none
  below : ∀ key, (s.db.groups.get? key).isSome = true → key.1 < s.db.nextId
  /-- What a wait ended with is an acknowledged checkpoint. -/
  checked : ∀ root i checkpoint, w.ended root i = some checkpoint →
    acks root i = some (.output checkpoint.toJson)
  gone : ∀ id i, l.continued id = false → w.ended (l.root id) i ≠ none →
    s.db.groups.get? (id, i) = none
  waiting : ∀ id job i, s.db.jobs.get? id = some job → l.continued id = false →
    w.left (l.root id) i = false → w.enqueued (l.root id) i ≠ [] → w.ended (l.root id) i = none →
    ∃ batch, w.enqueued (l.root id) i = [batch] ∧ w.batch (id, i) = some batch ∧
      (s.db.groups.get? (id, i)).isSome = true
  single : ∀ root i, w.left root i = false → (w.enqueued root i).length ≤ 1

section
variable {root : JobId} {l' : Lineage} {acks' : Acks} {w' : WaitLog}
  (hw : w' = WaitLog.note ((s, l), acks) e ((s', l'), acks') w)
include hw

theorem enqueued_cases (root : JobId) (i : String) :
    (∃ key batch, s.batches e = some (key, batch) ∧ l.waitOf root i key = true ∧
      w'.enqueued root i = (if s.replacesRoot l s' root then [] else w.enqueued root i) ++ [batch]) ∨
    (∀ key batch, s.batches e = some (key, batch) → l.waitOf root i key = false) ∧
      w'.enqueued root i = if s.replacesRoot l s' root then [] else w.enqueued root i := by
  have hnote : w'.enqueued root i = (if s.replacesRoot l s' root then [] else w.enqueued root i) ++
      ((s.batches e).filter fun b => l.waitOf root i b.1).toList.map (·.2) := by rw [hw]; rfl
  cases hb : s.batches e with
  | none => exact .inr ⟨by simp, by simp [hnote, hb]⟩
  | some new =>
    obtain ⟨key, batch⟩ := new
    cases hwait : l.waitOf root i key with
    | true => exact .inl ⟨key, batch, rfl, hwait, by simp [hnote, hb, hwait]⟩
    | false => exact .inr ⟨by simpa using hwait, by simp [hnote, hb, hwait]⟩

theorem ended_cases (root : JobId) (i : String) :
    s.replacesRoot l s' root = true ∧ w'.ended root i = none ∨
    s.replacesRoot l s' root = false ∧
      ((∃ key checkpoint, s.ends s' e = some (key, checkpoint) ∧ l.waitOf root i key = true ∧
        w'.ended root i = some checkpoint) ∨
      (∀ key checkpoint, s.ends s' e = some (key, checkpoint) → l.waitOf root i key = false) ∧
        w'.ended root i = w.ended root i) := by
  have hnote : w'.ended root i = if s.replacesRoot l s' root then none
      else ((s.ends s' e).filter fun c => l.waitOf root i c.1).map (·.2) <|> w.ended root i := by
    rw [hw]
    rfl
  cases hreplaced : s.replacesRoot l s' root with
  | true => exact .inl ⟨rfl, by simp [hnote, hreplaced]⟩
  | false =>
    refine .inr ⟨rfl, ?_⟩
    cases hends : s.ends s' e with
    | none => exact .inr ⟨by simp, by simp [hnote, hreplaced, hends]⟩
    | some ended =>
      obtain ⟨key, checkpoint⟩ := ended
      cases hwait : l.waitOf root i key with
      | true => exact .inl ⟨key, checkpoint, rfl, hwait, by simp [hnote, hreplaced, hends, hwait]⟩
      | false => exact .inr ⟨by simpa using hwait, by simp [hnote, hreplaced, hends, hwait, Option.filter]⟩

theorem left_of_note (hkept : s.replacesRoot l s' root = false) (hleft : w'.left root i = false) :
    w.left root i = false ∧ ∀ id next, s.continues e s' = some (id, next) → l.root id = root →
      s.db.groups.get? (id, i) = none := by
  have hnote : w'.left root i = (!s.replacesRoot l s' root && (w.left root i ||
      (s.continues e s').any fun c => l.root c.1 = root && (s.db.groups.get? (c.1, i)).isSome)) := by
    rw [hw]
    rfl
  rw [hnote, hkept, Bool.not_false, Bool.true_and, Bool.or_eq_false_iff] at hleft
  refine ⟨hleft.1, fun id next hsome hroot => ?_⟩
  simpa [hsome, hroot] using hleft.2

theorem batch_kept (hb : ∀ batch, s.batches e ≠ some (key, batch)) : w'.batch key = w.batch key := by
  subst hw
  cases hnew : s.batches e with
  | none => simp [WaitLog.note, hnew]
  | some new =>
    obtain ⟨created, batch⟩ := new
    have hne : key ≠ created := by
      rintro rfl
      exact hb batch hnew
    simp [WaitLog.note, hnew, hne]

end

/-- The row of a transaction is held by an attempt that has not continued it. -/
theorem held_of_tx (hwf : Wf s) (hdist : DistinctLocks s) (hlin : Lineage.Inv s l) {tx : Tx}
    (htx : s.txs.get? id = some tx) :
    l.continued id = false ∧ ∃ a job, s.attempts.get? tx.attempt = some a ∧ a.job.id = id ∧
      s.db.jobs.get? id = some job ∧ job.lock = some a.lock := by
  obtain ⟨a, job, ha, hid, hrow, howns, -⟩ := hwf.tx id tx htx
  subst hid
  refine ⟨?_, a, job, ha, rfl, hrow, lock_of_owned hwf hdist ha (owned_eq_some_iff.mpr ⟨hrow, howns⟩)⟩
  by_contra hne
  simp [hlin.closed a.job.id (by simpa using hne)] at htx

section
variable (hwf : Wf s) (hdist : DistinctLocks s) (hlin : Lineage.Inv s l)
include hwf hdist hlin

/-- The row that a transaction holds is not replaced. -/
private theorem keeps_held {tx : Tx} (h : s.exec e = some (s', r)) (htx : s.txs.get? id = some tx) :
    s.replacesRoot l s' (l.root id) = false := by
  obtain ⟨hopen, a, job, -, -, hrow, hlock⟩ := held_of_tx hwf hdist hlin htx
  exact not_replacesRoot hwf hlin h hopen hrow (.inl (by simp [hlock]))

/-- A batch is enqueued by a call that finds no checkpoint and no group. -/
private theorem unchecked_of_batches (hacks : Acks.Inv s l acks) (hb : s.batches e = some (key, batch)) :
    acks (l.root key.1) key.2 = none ∧ s.db.groups.get? key = none ∧
      ∃ tx, s.txs.get? key.1 = some tx := by
  cases e with
  | waitCommit id prepared =>
    simp only [State.batches] at hb
    split at hb
    · rename_i htx
      simp only [Option.some.injEq, Prod.mk.injEq] at hb
      obtain ⟨rfl, rfl⟩ := hb
      obtain ⟨hopen, a, job, ha, hid, hrow, hlock⟩ := held_of_tx hwf hdist hlin htx
      obtain ⟨a', -, ha', -, -, -, -, hcache, -, -, -, hfound⟩ := hwf.tx _ _ htx
      obtain rfl : a' = a := Option.some.inj (ha'.symm.trans ha)
      subst hid
      refine ⟨?_, by simpa [findGroup] using hfound.symm, _, htx⟩
      rw [← hacks.stores _ a' job _ hopen ha hrow hlock]
      exact hcache
    · cases hb
  | _ => cases hb

private theorem unended_of_batches (hacks : Acks.Inv s l acks) (honce : w.Once s l acks)
    (hb : s.batches e = some (key, batch)) : w.ended (l.root key.1) key.2 = none := by
  obtain ⟨hacked, -⟩ := unchecked_of_batches hwf hdist hlin hacks hb
  cases hended : w.ended (l.root key.1) key.2 with
  | none => rfl
  | some checkpoint => simp [honce.checked _ _ _ hended] at hacked

/-- A batch is the first one unless the job was continued beside its wait. -/
private theorem first_batch (hacks : Acks.Inv s l acks) (honce : w.Once s l acks)
    (hb : s.batches e = some (key, batch)) (hleft : w.left (l.root key.1) key.2 = false) :
    w.enqueued (l.root key.1) key.2 = [] := by
  obtain ⟨-, hnone, tx, htx⟩ := unchecked_of_batches hwf hdist hlin hacks hb
  obtain ⟨hopen, -, job, -, -, hrow, -⟩ := held_of_tx hwf hdist hlin htx
  by_contra hne
  obtain ⟨-, -, -, hsome⟩ := honce.waiting key.1 job key.2 hrow hopen hleft hne
    (unended_of_batches hwf hdist hlin hacks honce hb)
  simp [hnone] at hsome

/-- The checkpoint of a wait that ends is acknowledged. -/
private theorem acks_of_finishes {prepared : List Prepared} (h : s.exec (.waitCommit id prepared) = some (s', r))
    {k : ℕ} {now : Time} {call : WaitCall} {suspended : Bool} {group : FoundGroup} {a : Attempt} {job : Job}
    {checkpoint : WaitCheckpoint} {l' : Lineage}
    (hfin : Finishes s id s' k now call suspended group a job checkpoint) :
    Acks.note false (s, l) (.waitCommit id prepared) (s', l') acks (l.root id) call.waitId =
      some (.output checkpoint.toJson) := by
  obtain ⟨hopen, -⟩ := held_of_tx hwf hdist hlin hfin.tx
  have hfill : s.filling (.waitCommit id prepared) = some (k, fun i => decide (i = call.waitId)) := by
    simp [State.filling, hfin.tx]
  have hacked : s.acknowledges l false (.waitCommit id prepared) s' (l.root a.job.id) call.waitId =
      Function.update a.cache call.waitId (some (.output checkpoint.toJson)) call.waitId :=
    State.acknowledges_of_filling hfill (decide_eq_true rfl)
      (by rw [hfin.attempts, Table.get?_insert_self]) (by rw [hfin.own]; exact hopen)
  rw [hfin.own, Function.update_self] at hacked
  simp [Acks.note, keeps_held hwf hdist hlin h hfin.tx, hacked]

private theorem acks_of_ends (h : s.exec e = some (s', r)) {checkpoint : WaitCheckpoint}
    {l' : Lineage} (hends : s.ends s' e = some (key, checkpoint)) :
    Acks.note false (s, l) e (s', l') acks (l.root key.1) key.2 = some (.output checkpoint.toJson) := by
  obtain ⟨-, k, now, call, suspended, group, a, job, prepared, rfl, hkey, hfin⟩ :=
    finishes_of_ends hwf h hends
  rw [hkey]
  exact acks_of_finishes hwf hdist hlin h hfin

/-- The parent of a group that is created or ends has a row. -/
private theorem parent_below (hacks : Acks.Inv s l acks) (h : s.exec e = some (s', r))
    (hkey : (∃ batch, s.batches e = some (key, batch)) ∨
      ∃ checkpoint, s.ends s' e = some (key, checkpoint)) :
    key.1 < s.db.nextId ∧ l.continued key.1 = false ∧ s.replacesRoot l s' (l.root key.1) = false := by
  have htx : ∃ tx, s.txs.get? key.1 = some tx := by
    rcases hkey with ⟨batch, hb⟩ | ⟨checkpoint, hends⟩
    · exact (unchecked_of_batches hwf hdist hlin hacks hb).2.2
    · obtain ⟨-, k, now, call, suspended, group, a, job, prepared, -, -, hfin⟩ :=
        finishes_of_ends hwf h hends
      exact ⟨_, hfin.tx⟩
  obtain ⟨tx, htx⟩ := htx
  obtain ⟨hopen, -, job, -, -, hrow, -⟩ := held_of_tx hwf hdist hlin htx
  exact ⟨hwf.idsBelow _ _ hrow, hopen, keeps_held hwf hdist hlin h htx⟩

section
variable (hacks : Acks.Inv s l acks) (honce : w.Once s l acks) (h : s.exec e = some (s', r))
  {acks' : Acks} {w' : WaitLog}
  (hw : w' = WaitLog.note ((s, l), acks) e ((s', l.note s e s'), acks') w) {root : JobId}
include hacks honce h hw

private theorem single_exec (hleft : w'.left root i = false) : (w'.enqueued root i).length ≤ 1 := by
  rcases enqueued_cases hw root i with ⟨key, batch, hb, hwait, henq⟩ | ⟨-, henq⟩
  · obtain ⟨rfl, rfl⟩ := Lineage.waitOf_iff.mp hwait
    obtain ⟨-, -, hkept⟩ := parent_below hwf hdist hlin hacks h (.inl ⟨batch, hb⟩)
    rw [henq, first_batch hwf hdist hlin hacks honce hb (left_of_note hw hkept hleft).1]
    simp
  · rw [henq]
    split
    · exact Nat.zero_le 1
    · rename_i hreplaced
      exact honce.single root i (left_of_note hw (by simpa using hreplaced) hleft).1

private theorem log_fresh_exec (hle : s'.db.nextId ≤ root) : w'.enqueued root i = [] ∧ w'.ended root i = none := by
  have hle := (State.db_ok hwf h).1.trans hle
  obtain ⟨henqueued, hended⟩ := honce.fresh root i hle
  have hfresh : ∀ key, key.1 < s.db.nextId → l.waitOf root i key = false := by
    intro key hbelow
    by_contra hwait
    obtain ⟨rfl, -⟩ := Lineage.waitOf_iff.mp (by simpa using hwait)
    exact absurd ((hlin.root_le key.1).trans_lt hbelow) (not_lt.mpr hle)
  constructor
  · rcases enqueued_cases hw root i with ⟨key, batch, hb, hwait, -⟩ | ⟨-, henq⟩
    · simp [hfresh key (parent_below hwf hdist hlin hacks h (.inl ⟨batch, hb⟩)).1] at hwait
    · rw [henq, henqueued, ite_self]
  · rcases ended_cases hw root i with ⟨-, hnone⟩ | ⟨-, ⟨key, checkpoint, hends, hwait, -⟩ | ⟨-, hsame⟩⟩
    · exact hnone
    · simp [hfresh key (parent_below hwf hdist hlin hacks h (.inr ⟨checkpoint, hends⟩)).1] at hwait
    · rw [hsame, hended]

omit hw in
private theorem below_exec (hget : (s'.db.groups.get? key).isSome = true) : key.1 < s'.db.nextId := by
  obtain ⟨group, hget⟩ := Option.isSome_iff_exists.mp hget
  refine lt_of_lt_of_le ?_ (State.db_ok hwf h).1
  rcases group_origin hwf h hget with hb | ⟨group, hget, -⟩
  · exact (parent_below hwf hdist hlin hacks h (.inl hb)).1
  · exact honce.below key (by rw [hget]; rfl)

private theorem checked_exec (hacked : acks' = Acks.note false (s, l) e (s', l.note s e s') acks)
    {checkpoint : WaitCheckpoint} (hended : w'.ended root i = some checkpoint) :
    acks' root i = some (.output checkpoint.toJson) := by
  rw [hacked]
  rcases ended_cases hw root i with ⟨-, hnone⟩ | ⟨hkept, ⟨key, ended, hends, hwait, hsome⟩ | ⟨-, hsame⟩⟩
  · simp [hnone] at hended
  · obtain rfl : ended = checkpoint := Option.some.inj (hsome.symm.trans hended)
    obtain ⟨rfl, rfl⟩ := Lineage.waitOf_iff.mp hwait
    exact acks_of_ends hwf hdist hlin h hends
  · exact acks_kept hwf hlin (fun hlate => by cases hlate) h hdist hacks hkept
      (honce.checked root i checkpoint (hsame ▸ hended))

omit honce in
/-- A group that stays is not that of a wait which ends. -/
private theorem ended_before (hopen : l.continued id = false)
    (hget : s'.db.groups.get? (id, i) ≠ none) (hended : w'.ended (l.root id) i ≠ none) :
    w.ended (l.root id) i ≠ none := by
  rcases ended_cases hw (l.root id) i with ⟨-, hnone⟩ | ⟨-, ⟨key, checkpoint, hends, hwait, -⟩ | ⟨-, hsame⟩⟩
  · exact absurd hnone hended
  · obtain ⟨hroot, rfl⟩ := Lineage.waitOf_iff.mp hwait
    obtain ⟨-, hopen', -⟩ := parent_below hwf hdist hlin hacks h (.inr ⟨checkpoint, hends⟩)
    obtain rfl := hlin.tips key.1 id hopen' hopen hroot
    exact absurd (finishes_of_ends hwf h hends).1 hget
  · exact hsame ▸ hended

/-- Of a wait that has ended, the row that can run next has no group. -/
private theorem ended_gone (hopen : l.continued id = false) (hended : w'.ended (l.root id) i ≠ none) :
    s'.db.groups.get? (id, i) = none := by
  by_contra hne
  have hbefore := ended_before hwf hdist hlin hacks h hw hopen hne hended
  obtain ⟨group, hget⟩ := Option.ne_none_iff_exists'.mp hne
  rcases group_origin hwf h hget with ⟨batch, hb⟩ | ⟨group, hget, -⟩
  · exact hbefore (unended_of_batches hwf hdist hlin hacks honce hb)
  · simp [honce.gone id i hopen hbefore] at hget

/-- A wait that has not ended has its one batch and the group of it. -/
private theorem waiting_kept {job' : Job} (hrow' : s'.db.jobs.get? id = some job')
    (hopen : l.continued id = false) (hleft : w'.left (l.root id) i = false)
    (henqueued : w'.enqueued (l.root id) i ≠ []) (hended : w'.ended (l.root id) i = none) :
    ∃ batch, w'.enqueued (l.root id) i = [batch] ∧ w'.batch (id, i) = some batch ∧
      (s'.db.groups.get? (id, i)).isSome = true := by
  rcases enqueued_cases hw (l.root id) i with ⟨key, batch, hb, hwait, henq⟩ | ⟨hother, henq⟩
  · obtain ⟨hroot, rfl⟩ := Lineage.waitOf_iff.mp hwait
    obtain ⟨-, hopen', hkept⟩ := parent_below hwf hdist hlin hacks h (.inl ⟨batch, hb⟩)
    obtain rfl := hlin.tips key.1 id hopen' hopen hroot
    have hfirst := first_batch hwf hdist hlin hacks honce hb (left_of_note hw hkept hleft).1
    obtain ⟨group, -, hgroups⟩ := (enqueues_of_batches hwf h hb).groups
    refine ⟨batch, by rw [henq, hfirst, ite_self, List.nil_append], ?_, by simp [hgroups]⟩
    simp [hw, WaitLog.note, hb]
  · have hwait : l.waitOf (l.root id) i (id, i) = true := Lineage.waitOf_iff.mpr ⟨rfl, rfl⟩
    rw [henq] at henqueued ⊢
    split at henqueued
    · exact absurd rfl henqueued
    rename_i hreplaced
    have hkept : s.replacesRoot l s' (l.root id) = false := by simpa using hreplaced
    rw [if_neg hreplaced]
    have hunended : w.ended (l.root id) i = none ∧
        ∀ checkpoint, s.ends s' e ≠ some ((id, i), checkpoint) := by
      rcases ended_cases hw (l.root id) i with ⟨htrue, -⟩ | ⟨-, ⟨_, checkpoint, -, -, hsome⟩ | ⟨hnot, hsame⟩⟩
      · exact absurd htrue hreplaced
      · simp [hended] at hsome
      · exact ⟨hsame ▸ hended, fun checkpoint hends => by simp [hnot _ _ hends] at hwait⟩
    have hbelow : id < s.db.nextId := by
      by_contra hle
      rw [(hlin.fresh id (not_lt.mp hle)).1] at henqueued
      exact henqueued (honce.fresh id i (not_lt.mp hle)).1
    obtain ⟨job, hrow⟩ := row_of_below hwf h hbelow hrow'
    obtain ⟨batch, henq, hbatch, hget⟩ :=
      honce.waiting id job i hrow hopen (left_of_note hw hkept hleft).1 henqueued hunended.1
    refine ⟨batch, henq, ?_, ?_⟩
    · rw [batch_kept hw fun batch hb => by simp [hother _ _ hb] at hwait, hbatch]
    · by_contra hgone
      rcases group_gone hwf h hget (by simpa using hgone) with ⟨checkpoint, hends⟩ | hnone
      · exact hunended.2 checkpoint hends
      · simp [hrow] at hnone

omit hacks in
/-- A continuation has no groups, and takes over the waits that have ended. -/
private theorem waiting_continued {old : JobId} (hc : s.continues e s' = some (old, id))
    (hleft : w'.left (l.root old) i = false) (henqueued : w'.enqueued (l.root old) i ≠ []) :
    w'.ended (l.root old) i ≠ none := by
  rcases continues_cases hwf h with ⟨hnone, -⟩ | ⟨old', k, now, job, runAt, traceparent, progress, a,
    rfl, hsome, hcont⟩
  · simp [hnone] at hc
  obtain ⟨rfl, -⟩ := Prod.mk.inj (Option.some.inj (hsome.symm.trans hc))
  have hkept := keeps_held hwf hdist hlin h hcont.tx
  obtain ⟨hleft, hgroup⟩ := left_of_note hw hkept hleft
  intro hended
  have henqueued : w.enqueued (l.root old') i ≠ [] := by
    rcases enqueued_cases hw (l.root old') i with ⟨_, _, hb, -⟩ | ⟨-, henq⟩
    · cases hb
    · simpa [henq, hkept] using henqueued
  have hunended : w.ended (l.root old') i = none := by
    rcases ended_cases hw (l.root old') i with ⟨htrue, -⟩ | ⟨-, ⟨_, _, hends, -⟩ | ⟨-, hsame⟩⟩
    · simp [hkept] at htrue
    · cases hends
    · rw [← hsame, hended]
  obtain ⟨-, -, -, hsome⟩ := honce.waiting old' job i hcont.row (not_continued hlin hcont) hleft henqueued
    hunended
  simp [hgroup old' _ hc rfl] at hsome

omit hdist hlin hacks honce hw in
/-- A row that can run next: the continuation of this step, or one that could run next before. -/
private theorem open_cases (hopen : (l.note s e s').continued id = false) :
    (∃ old, s.continues e s' = some (old, id) ∧ id = s.db.nextId ∧
      (l.note s e s').root id = l.root old) ∨
    (l.note s e s').root id = l.root id ∧ l.continued id = false := by
  rcases continues_cases hwf h with ⟨hnone, -⟩ | ⟨old, _, _, _, _, _, _, _, -, hsome, -⟩
  · refine .inr ⟨by simp [Lineage.note, hnone], by simpa [Lineage.note, hnone] using hopen⟩
  · simp only [Lineage.note, hsome, Function.update_apply] at hopen ⊢
    split at hopen
    · cases hopen
    · by_cases hid : id = s.db.nextId
      · exact .inl ⟨old, by rw [hid], hid, by rw [if_pos hid]⟩
      · exact .inr ⟨if_neg hid, hopen⟩

theorem WaitLog.once_exec (hacked : acks' = Acks.note false (s, l) e (s', l.note s e s') acks) :
    w'.Once s' (l.note s e s') acks' where
  fresh _ i hle := log_fresh_exec (i := i) hwf hdist hlin hacks honce h hw hle
  below _ hget := below_exec hwf hdist hlin hacks honce h hget
  checked _ _ _ hended := checked_exec hwf hdist hlin hacks honce h hw hacked hended
  gone id i hopen hended := by
    rcases open_cases hwf h hopen with ⟨old, -, hid, -⟩ | ⟨hroot, hopen⟩
    · by_contra hne
      obtain ⟨group, hget⟩ := Option.ne_none_iff_exists'.mp hne
      rcases group_origin hwf h hget with hb | ⟨group, hget, -⟩
      · exact absurd (parent_below hwf hdist hlin hacks h (.inl hb)).1 (by simp [hid])
      · exact absurd (honce.below (id, i) (by rw [hget]; rfl)) (by simp [hid])
    · exact ended_gone hwf hdist hlin hacks honce h hw hopen (hroot ▸ hended)
  waiting id job i hrow hopen hleft henqueued hended := by
    rcases open_cases hwf h hopen with ⟨old, hc, -, hroot⟩ | ⟨hroot, hopen⟩
    · rw [hroot] at hleft henqueued hended
      exact absurd hended (waiting_continued hwf hdist hlin honce h hw hc hleft henqueued)
    · rw [hroot] at hleft henqueued hended ⊢
      exact waiting_kept hwf hdist hlin hacks honce h hw hrow hopen hleft henqueued hended
  single _ _ hleft := single_exec hwf hdist hlin hacks honce h hw hleft

end

end

theorem WaitLog.once_reachable {q : ((State × Lineage) × Acks) × WaitLog}
    (hreach : waitLogs.ReachableWith (fun q e => LockTimesDiffer q.1.1.1 e) q) :
    q.2.Once q.1.1.1 q.1.1.2 q.1.2 := by
  refine hreach.invariant (I := fun q => q.2.Once q.1.1.1 q.1.1.2 q.1.2) ?_ ?_
  · rintro ⟨⟨⟨s, l⟩, acks⟩, w⟩ ⟨⟨⟨hs, -⟩, -⟩, hw⟩
    obtain rfl : s = State.initial := hs
    obtain rfl : w = .start := hw
    exact {
      fresh := fun _ _ _ => ⟨rfl, rfl⟩
      below := fun _ hget => (by cases hget)
      checked := fun _ _ _ hended => (by cases hended)
      gone := fun _ _ _ hended => absurd rfl hended
      waiting := fun _ _ _ hrow => (by cases hrow)
      single := fun _ _ _ => Nat.zero_le 1 }
  · rintro ⟨⟨⟨s, l⟩, acks⟩, w⟩ e ⟨⟨⟨s', l'⟩, acks'⟩, w'⟩ hreach honce - hstep
    obtain ⟨r, hexec, hl, hacked, hw⟩ := waitLogs_step hstep
    obtain ⟨-, hwf, hdist, hlin, hacks⟩ := waitLogs_reachable hreach
    simp only at hexec hl hacked hw honce hwf hdist hlin hacks
    subst hl
    exact WaitLog.once_exec hwf hdist hlin hacks honce hexec hw hacked

/--
While the payload of a logical job is not replaced and the job is not continued beside the wait,
each wait enqueues one batch at most. Until it ends, its group is there; from then on the group is
gone and the checkpoint is in the envelope of the row that can run next.
-/
theorem waits_once (hreach : waitLogs.ReachableWith (fun q e => LockTimesDiffer q.1.1.1 e)
      (((s, l), acks), w)) :
    (∀ root i, w.left root i = false → (w.enqueued root i).length ≤ 1) ∧
    ∀ id job i batch, s.db.jobs.get? id = some job → l.continued id = false →
      w.left (l.root id) i = false → batch ∈ w.enqueued (l.root id) i →
      match w.ended (l.root id) i with
      | none => (s.db.groups.get? (id, i)).isSome = true ∧ w.batch (id, i) = some batch
      | some checkpoint => s.db.groups.get? (id, i) = none ∧
          Payload.extractStepCache job.payload i = some (.output checkpoint.toJson) := by
  obtain ⟨-, hwf, -, hlin, hacks⟩ := waitLogs_reachable hreach
  have honce := WaitLog.once_reachable hreach
  refine ⟨honce.single, fun id job i batch hrow hopen hleft hmem => ?_⟩
  cases hended : w.ended (l.root id) i with
  | none =>
    obtain ⟨batch', henq, hbatch, hget⟩ :=
      honce.waiting id job i hrow hopen hleft (List.ne_nil_of_mem hmem) hended
    rw [henq, List.mem_singleton] at hmem
    exact ⟨hget, hmem ▸ hbatch⟩
  | some checkpoint =>
    exact ⟨honce.gone id i hopen (by simp [hended]),
      hacks.rows id job i _ hopen hrow (honce.checked _ _ _ hended)⟩

/-! ## Results -/

abbrev Logged := ((State × Lineage) × Acks) × WaitLog

/-- No step replaces the payload of the logical job. -/
def KeepsPayload (root : JobId) (q : Logged) (e : Event) : Prop :=
  LockTimesDiffer q.1.1.1 e ∧
    ∀ q', waitLogs.step q e = some q' → q.1.1.1.replacesRoot q.1.1.2 q'.1.1.1 root = false

theorem acks_of_leads {q q' : Logged} {root : JobId} {entry : StepCacheEntry}
    (hreach : waitLogs.ReachableWith (fun q e => LockTimesDiffer q.1.1.1 e) q)
    (hleads : waitLogs.Leads (KeepsPayload root) q q') (hacked : q.1.2 root i = some entry) :
    waitLogs.ReachableWith (fun q e => LockTimesDiffer q.1.1.1 e) q' ∧ q'.1.2 root i = some entry := by
  induction hleads with
  | refl => exact ⟨hreach, hacked⟩
  | @step q₁ q₂ e hleads hkeeps hstep ih =>
    obtain ⟨hreach, hacked⟩ := ih
    obtain ⟨-, hwf, hdist, hlin, hacks⟩ := waitLogs_reachable hreach
    obtain ⟨r, hexec, -, hnote, -⟩ := waitLogs_step hstep
    refine ⟨hreach.step hkeeps.1 hstep, ?_⟩
    rw [hnote]
    exact acks_kept hwf hlin (fun hlate => by cases hlate) hexec hdist hacks (hkeeps.2 q₂ hstep) hacked

section
variable {V : Type*}

/--
A wait that ends returns the reports told of the children that its group was created with, each
child followed through its continuations, in the order of the inputs; or, when the deadline of
that batch has passed, it throws the children of which nothing was told. Until the payload of the
job is replaced, every row of it that can run has the checkpoint, of which a replay decodes the same.
-/
theorem wait_results (hreach : waitLogs.ReachableWith (fun q e => LockTimesDiffer q.1.1.1 e)
      (((s, l), acks), w)) {prepared : List Prepared} {checkpoint : WaitCheckpoint}
    (h : s.exec (.waitCommit id prepared) = some (s', .entered (.finished checkpoint)))
    (queue : QueueContract V) :
    ∃ k now call suspended group batch,
      s.txs.get? id = some ⟨k, now, .waitLooked call suspended (some group)⟩ ∧
      w.batch (id, call.waitId) = some batch ∧
      batch.children.length = batch.call.inputs.length ∧
      ((∃ reports, w.Reports l (id, call.waitId) batch reports ∧
          decodeWaitCheckpoint call.waitId queue checkpoint.toJson =
            reports.mapM fun report => report.2.result queue report.1) ∨
        (∃ deadline, batch.deadline = some deadline ∧ deadline ≤ now) ∧
        ∃ pending, w.Unreported l (id, call.waitId) batch pending ∧
          decodeWaitCheckpoint call.waitId queue checkpoint.toJson =
            .error (.timeout call.waitId (pending.map toString))) ∧
      ∀ q q', waitLogs.step (((s, l), acks), w) (.waitCommit id prepared) = some q →
        waitLogs.Leads (KeepsPayload (l.root id)) q q' → ∀ id' job, q'.1.1.1.db.jobs.get? id' = some job →
          q'.1.1.2.continued id' = false → q'.1.1.2.root id' = l.root id →
            Payload.extractStepCache job.payload call.waitId = some (.output checkpoint.toJson) := by
  obtain ⟨hsystem, hwf, hdist, hlin, -⟩ := waitLogs_reachable hreach
  obtain ⟨ledger, hacc⟩ := exists_accounting hsystem
  obtain ⟨k, now, call, suspended, found, a, job, hfin⟩ := finishes_of_commit hwf h
  obtain ⟨-, -, -, -, -, -, -, -, -, -, -, hfound⟩ := hwf.tx id _ hfin.tx
  obtain ⟨group, hget, hread⟩ := Option.map_eq_some_iff.mp hfound.symm
  have hread : found = ⟨group.remaining, group.deadline.any (· ≤ now)⟩ := hread.symm
  subst hread
  obtain ⟨batch, hbatch, hlength, hdeadline, hrow⟩ := WaitLog.rows_reachable hreach _ group hget
  refine ⟨k, now, call, suspended, _, batch, hfin.tx, hbatch, hlength, ?_, ?_⟩
  · rw [hfin.results]
    rcases answer_of_rows queue hacc hget hrow with hreports | ⟨hremaining, hpending⟩
    · exact .inl hreports
    · refine .inr ⟨?_, hpending⟩
      obtain ⟨deadline, hsome, hdue⟩ := (Option.any_eq_true _ _).mp (hfin.leave.resolve_left hremaining)
      exact ⟨deadline, hdeadline.symm.trans hsome, of_decide_eq_true hdue⟩
  -- The commit acknowledges its checkpoint to the logical job, and what is acknowledged is kept.
  · intro q q' hstep hleads id' job hrow hopen hroot
    obtain ⟨r', hexec, -, hacked, -⟩ := waitLogs_step hstep
    have hdiffer : LockTimesDiffer s (.waitCommit id prepared) := rfl
    have hfirst : q.1.2 (l.root id) call.waitId = some (.output checkpoint.toJson) := by
      obtain ⟨hs, -⟩ := Prod.mk.inj (Option.some.inj (h.symm.trans hexec))
      rw [hacked]
      exact acks_of_finishes hwf hdist hlin hexec (hs ▸ hfin)
    obtain ⟨hreach', hacks⟩ := acks_of_leads (hreach.step hdiffer hstep) hleads hfirst
    obtain ⟨-, -, -, -, hacks'⟩ := waitLogs_reachable hreach'
    exact hacks'.rows id' job call.waitId _ hopen hrow (hroot ▸ hacks)

end

/-! ## A child that continues -/

namespace WaitResultsTrace

def options : ChildOptions := ⟨none, none, none, 25, none, none, none, .replace⟩

def call : WaitCall := ⟨"pages", "page", [some (.num 1), some (.num 2)], none, by simp⟩

/-- Two children, of which the first continues; when both have reported, the parent runs again. -/
def reported : List Event :=
  [.addJob 0 ⟨"crawl", Payload.injectTraceContext none none, none, none, none, none, none, none,
      .replace⟩,
    .claim 0 "a" 1 false, .waitBegin 0 0 call, .waitLookup 1,
    .waitCommit 1 [.add options, .add options], .failJob 0 "a" 1 "waiting",
    .claim 0 "b" 2 false, .continueBegin 0 1 none none, .continueCommit 2, .claim 0 "b" 3 false,
    .settle 0 2 ⟨none, some (.failed "Error" "not found"), .delete⟩ fun _ => true,
    .claim 0 "b" 4 false, .settle 0 3 ⟨none, some (.ok none), .delete⟩ fun _ => true,
    .claim 0 "c" 1 false, .waitBegin 0 4 call, .waitLookup 1]

def finishes (q : Logged) : Bool :=
  (q.1.1.1.txs.get? 1).any (fun tx => tx.heldWait = some "pages") &&
    (q.2.batch (1, "pages")).any (fun batch => batch.deadline.isNone) &&
    (q.1.1.1.exec (.waitCommit 1 [])).any fun res =>
      match res.2 with
      | .entered (.finished _) => true
      | _ => false

def finished (q : Logged) : Bool :=
  (q.1.1.1.db.jobs.get? 1).isSome && !q.1.1.2.continued 1 && q.1.1.2.root 1 = 1 &&
    !q.2.left 1 "pages" && !(q.2.enqueued 1 "pages").isEmpty && (q.2.ended 1 "pages").isSome

theorem exists_logged (events : List Event) (p : Logged → Bool)
    (h : (waitLogs.runWith (fun q e => lockTimesDiffer q.1.1.1 e)
      (((State.initial, .start), fun _ _ => none), .start) events).any p = true) :
    ∃ q, waitLogs.ReachableWith (fun q e => LockTimesDiffer q.1.1.1 e) q ∧ p q = true := by
  have hinit : waitLogs.Init (((State.initial, .start), fun _ _ => none), .start) :=
    ⟨⟨⟨rfl, rfl⟩, rfl⟩, rfl⟩
  exact TransitionSystem.exists_reachableWith_of_runWith events p (fun _ _ hc => hc) hinit h

end WaitResultsTrace

theorem wait_results_continued : ∃ (q : Logged) (s' : State) (checkpoint : WaitCheckpoint)
    (batch : WaitBatch) (reports : List (JobId × ChildReport)),
    q.1.1.1.exec (.waitCommit 1 []) = some (s', .entered (.finished checkpoint)) ∧
      q.2.batch (1, "pages") = some batch ∧ q.2.Reports q.1.1.2 (1, "pages") batch reports := by
  obtain ⟨⟨⟨⟨s, l⟩, acks⟩, w⟩, hreach, hp⟩ := WaitResultsTrace.exists_logged WaitResultsTrace.reported
    WaitResultsTrace.finishes (by decide)
  simp only [WaitResultsTrace.finishes, Bool.and_eq_true, Option.any_eq_true] at hp
  obtain ⟨⟨⟨tx, htx, hheld⟩, batch, hbatch, hnone⟩, ⟨s', r⟩, h, hfinished⟩ := hp
  cases r with
  | entered entered =>
    cases entered with
    | finished checkpoint =>
      obtain ⟨k, now, call, suspended, group, batch', htx', hbatch', -, hresults, -⟩ :=
        wait_results hreach h (⟨"page", none⟩ : QueueContract Unit)
      obtain rfl := Option.some.inj (htx'.symm.trans htx)
      have hcall : call.waitId = "pages" := by simpa [Tx.heldWait] using hheld
      rw [hcall] at hbatch' hresults
      obtain rfl := Option.some.inj (hbatch.symm.trans hbatch')
      rcases hresults with ⟨reports, hreports, -⟩ | ⟨⟨deadline, hdeadline, -⟩, -⟩
      · exact ⟨(((s, l), acks), w), s', checkpoint, batch, reports, h, hbatch, hreports⟩
      · simp [hdeadline] at hnone
    | suspended => cases hfinished
  | done | refused | rejected | continued => cases hfinished

theorem waits_once_finished : ∃ (q : Logged) (job : Job) (checkpoint : WaitCheckpoint),
    q.1.1.1.db.jobs.get? 1 = some job ∧ (q.2.enqueued 1 "pages").length = 1 ∧
      Payload.extractStepCache job.payload "pages" = some (.output checkpoint.toJson) := by
  obtain ⟨⟨⟨⟨s, l⟩, acks⟩, w⟩, hreach, hp⟩ := WaitResultsTrace.exists_logged
    (WaitResultsTrace.reported ++ [.waitCommit 1 []]) WaitResultsTrace.finished (by decide)
  simp only [WaitResultsTrace.finished, Bool.and_eq_true, Bool.not_eq_true', decide_eq_true_eq,
    Option.isSome_iff_exists, List.isEmpty_eq_false_iff_exists_mem] at hp
  obtain ⟨⟨⟨⟨⟨⟨job, hrow⟩, hopen⟩, hroot⟩, hleft⟩, batch, hmem⟩, checkpoint, hended⟩ := hp
  obtain ⟨hsingle, hwaits⟩ := waits_once hreach
  have hwait := hwaits 1 job "pages" batch hrow hopen (by rw [hroot, hleft]) (by rw [hroot]; exact hmem)
  rw [hroot, hended] at hwait
  exact ⟨(((s, l), acks), w), job, checkpoint, hrow, le_antisymm (hsingle 1 "pages" hleft)
    (List.length_pos_of_mem hmem), hwait.2⟩

end BetterGraphileWorker
