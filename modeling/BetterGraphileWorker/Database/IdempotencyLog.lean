-- SUMMARY: bgw_add_jobs calls and prune runs act in the order of their commits: what a key answers, and for how long.
import BetterGraphileWorker.Database.IdempotencyKeys

/-!
# The log of idempotency keys

Calls claim their keys item by item while others run, and become visible at their commit.
The log lists the calls and the prune runs in the order of their commits. Read in this
order, every call is answered as if it had run alone, at the `now()` of its transaction's
start, which need not grow along the log.
-/

namespace BetterGraphileWorker.IdempotencyKeys

/-! ## One operation after another -/

/-- The row of each key. -/
abbrev Rows := Key → Option KeyRow

/-- One item of a call, or one run of `pruneIdempotencyKeys`. -/
inductive Op where
  | serve (now : Time) (item : Item) (returned : Returned)
  | prune (now : Time) (removed : List Key)

def Op.now : Op → Time
  | .serve now _ _ | .prune now _ => now

/-- The item has the key, or its row is removed. -/
def Op.touches (key : Key) : Op → Prop
  | .serve _ item _ => item.key = some key
  | .prune _ removed => key ∈ removed

/-- What an operation makes of the rows if nothing else runs. -/
inductive Serves (rows : Rows) : Op → Rows → Prop where
  | unkeyed {now : Time} {item : Item} (id : Option JobId) (hitem : item.idempotency = none) :
    Serves rows (.serve now item ⟨id, false⟩) rows
  /-- An unexpired key answers with its job. -/
  | duplicate {now expiresAt : Time} {item : Item} {key : String} {ttl : ℤ} {id : JobId}
      (hitem : item.idempotency = some (key, ttl))
      (hrow : rows (item.spec.identifier, key) = some ⟨some id, expiresAt⟩) (hnow : now < expiresAt) :
    Serves rows (.serve now item ⟨some id, true⟩) rows
  /-- Otherwise one job is added, and its id is recorded. -/
  | claim {now : Time} {item : Item} {key : String} {ttl : ℤ} (id : Option JobId)
      (hitem : item.idempotency = some (key, ttl))
      (hfree : (claimed now ttl (rows (item.spec.identifier, key))).jobId = none) :
    Serves rows (.serve now item ⟨id, false⟩) (Function.update rows (item.spec.identifier, key)
      (some ⟨id, (claimed now ttl (rows (item.spec.identifier, key))).expiresAt⟩))
  /-- Only expired rows are removed. -/
  | prune {now : Time} {removed : List Key}
      (hremoved : ∀ key ∈ removed, ∃ row, rows key = some row ∧ row.expiresAt ≤ now) :
    Serves rows (.prune now removed) fun key => if key ∈ removed then none else rows key

/-- The operations take the rows from the first state to the last one. -/
inductive Serial (rows : Rows) : List Op → Rows → Prop where
  | nil : Serial rows [] rows
  | snoc {ops : List Op} {op : Op} {rows' rows'' : Rows} (h : Serial rows ops rows')
      (hop : Serves rows' op rows'') : Serial rows (ops ++ [op]) rows''

/-! ## The log -/

inductive Entry where
  /-- The jobs of `added` are those that its `add_job` calls returned. -/
  | call (now : Time) (items : List Item) (added : List (Option JobId)) (returned : List Returned)
  | prune (now : Time) (removed : List Key)

def serves (now : Time) (items : List Item) (returned : List Returned) : List Op :=
  (items.zip returned).map fun served => .serve now served.1 served.2

def Entry.ops : Entry → List Op
  | .call now items _ returned => serves now items returned
  | .prune now removed => [.prune now removed]

/-- The ids of the items that were no duplicates. -/
def adds (returned : List Returned) : List (Option JobId) :=
  (returned.filter fun row => !row.deduplicated).map (·.id)

/-- A row for each item in its place, and one `add_job` for each item that is no duplicate. -/
def Entry.Answered : Entry → Prop
  | .call _ items added returned => returned.length = items.length ∧ added = adds returned
  | .prune _ _ => True

/-- A call that began: its items, and what its `add_job` calls returned so far. -/
structure Begun where
  items : List Item
  added : List (Option JobId)

/-- The calls that began, and the commits. -/
structure Past where
  begun : Table ℕ Begun
  log : List Entry

def Past.note (s : State) (e : Event) (_ : State) (past : Past) : Past :=
  match e with
  | .begin _ items => { past with begun := past.begun.insert s.next ⟨items, []⟩ }
  | .addJob k id =>
    { past with begun := past.begun.update k fun call => { call with added := call.added ++ [id] } }
  | .commit k =>
    match s.txs.get? k with
    | some (.batch batch) =>
      let call := (past.begun.get? k).getD ⟨[], []⟩
      { past with log := past.log ++ [.call batch.now call.items call.added batch.returned] }
    | some (.prune prune) => { past with log := past.log ++ [.prune prune.now prune.locked] }
    | none => past
  | _ => past

/-- The system with its log. -/
def logged : TransitionSystem (State × Past) Event := system.observe ⟨∅, []⟩ Past.note

/-- The operations of the log. -/
def Past.ops (past : Past) : List Op := past.log.flatMap Entry.ops

/-! ## Operations on other keys -/

section
variable {rows rows' rows'' other : Rows} {op : Op} {ops ops' : List Op} {held : Key → Prop}

theorem Serial.append (h : Serial rows ops rows') (h' : Serial rows' ops' rows'') :
    Serial rows (ops ++ ops') rows'' := by
  induction h' with
  | nil => simpa using h
  | snoc _ hop ih =>
    rw [← List.append_assoc]
    exact .snoc ih hop

/-- The same operation on rows that agree where it touches them. -/
theorem Serves.frame (h : Serves rows op rows') (htouches : ∀ key, op.touches key → held key)
    (hagree : ∀ key, held key → other key = rows key) :
    ∃ other', Serves other op other' ∧ (∀ key, held key → other' key = rows' key) ∧
      ∀ key, ¬held key → other' key = other key := by
  cases h with
  | unkeyed id hitem => exact ⟨other, .unkeyed id hitem, hagree, fun _ _ => rfl⟩
  | @duplicate now expiresAt item key ttl id hitem hrow hnow =>
    have hkey : held (item.spec.identifier, key) := htouches _ (by simp [Op.touches, Item.key, hitem])
    exact ⟨other, .duplicate hitem (by rw [hagree _ hkey, hrow]) hnow, hagree, fun _ _ => rfl⟩
  | @claim now item key ttl id hitem hfree =>
    have hkey : held (item.spec.identifier, key) := htouches _ (by simp [Op.touches, Item.key, hitem])
    rw [← hagree _ hkey] at hfree
    refine ⟨_, .claim id hitem hfree, fun key' hkey' => ?_, fun key' hkey' => ?_⟩
    · rw [hagree _ hkey]
      simp only [Function.update_apply]
      split
      · rfl
      · exact hagree key' hkey'
    · apply Function.update_of_ne
      rintro rfl
      exact hkey' hkey
  | @prune now removed hremoved =>
    have hremoved' : ∀ key ∈ removed, ∃ row, other key = some row ∧ row.expiresAt ≤ now := by
      intro key hmem
      rw [hagree key (htouches key hmem)]
      exact hremoved key hmem
    refine ⟨_, .prune hremoved', fun key hkey => ?_, fun key hkey => ?_⟩
    · simp only
      rw [hagree key hkey]
    · simp only [ite_eq_right_iff]
      intro hmem
      exact absurd (htouches key hmem) hkey

theorem Serial.frame (h : Serial rows ops rows')
    (htouches : ∀ op ∈ ops, ∀ key, op.touches key → held key)
    (hagree : ∀ key, held key → other key = rows key) :
    ∃ other', Serial other ops other' ∧ (∀ key, held key → other' key = rows' key) ∧
      ∀ key, ¬held key → other' key = other key := by
  induction h with
  | nil => exact ⟨other, .nil, hagree, fun _ _ => rfl⟩
  | snoc _ hop ih =>
    obtain ⟨other₁, hserial, hin, hout⟩ := ih fun op hop => htouches op (List.mem_append_left _ hop)
    obtain ⟨other₂, hserves, hin', hout'⟩ := hop.frame (htouches _ (by simp)) hin
    exact ⟨other₂, .snoc hserial hserves, hin', fun key hkey => (hout' key hkey).trans (hout key hkey)⟩

end

/-! ## What a running call has done -/

/-- The rows as the call sees them. -/
def Batch.sees (rows : Rows) (batch : Batch) : Rows := fun key => (batch.written.get? key).or (rows key)

/-- The call has served the items so far as if alone, which took the rows to `seen`. -/
structure Progress (rows : Rows) (batch : Batch) (done : List Item) (seen : Rows) : Prop where
  length : done.length = batch.returned.length
  serial : Serial rows (serves batch.now done batch.returned) seen
  held : ∀ op ∈ serves batch.now done batch.returned, ∀ key, op.touches key →
    Tx.holds key (.batch batch) = true
  settled : batch.adding = false → batch.sees rows = seen
  /-- The next item is claimed already. -/
  adding : batch.adding = true → ∃ item rest key ttl, batch.rest = item :: rest ∧
    item.idempotency = some (key, ttl) ∧
    Tx.holds (item.spec.identifier, key) (.batch batch) = true ∧
    (claimed batch.now ttl (seen (item.spec.identifier, key))).jobId = none ∧
    batch.sees rows = Function.update seen (item.spec.identifier, key)
      (some (claimed batch.now ttl (seen (item.spec.identifier, key))))

section
variable {rows rows' seen : Rows} {batch : Batch} {done : List Item}

theorem Batch.sees_of_holds {key : Key} (h : Tx.holds key (.batch batch) = true) :
    batch.sees rows' key = batch.sees rows key := by
  obtain ⟨row, hrow⟩ := Option.isSome_iff_exists.mp h
  simp [Batch.sees, hrow]

theorem Batch.sees_of_not_holds {key : Key} (h : ¬Tx.holds key (.batch batch) = true) :
    batch.sees rows key = rows key := by
  have hrow : batch.written.get? key = none := by simpa [Tx.holds] using h
  simp [Batch.sees, hrow]

@[simp] theorem Batch.claim_now {key : Key} {row : KeyRow} : (batch.claim key row).now = batch.now := by
  cases hid : row.jobId <;> simp [Batch.claim, hid]

theorem Progress.start (now : Time) (items : List Item) :
    Progress rows ⟨now, ∅, items, false, []⟩ [] rows where
  length := rfl
  serial := .nil
  held op hop := by simp [serves] at hop
  settled _ := by
    funext key
    simp [Batch.sees]
  adding h := by cases h

/-- Commits of others do not disturb a call: they leave the rows that it holds. -/
theorem Progress.frame (h : Progress rows batch done seen)
    (hagree : ∀ key, Tx.holds key (.batch batch) = true → rows' key = rows key) :
    ∃ seen', Progress rows' batch done seen' := by
  obtain ⟨seen', hserial, hin, hout⟩ := h.serial.frame h.held hagree
  refine ⟨seen', h.length, hserial, h.held, fun hadding => ?_, fun hadding => ?_⟩
  · funext key
    cases Classical.em (Tx.holds key (.batch batch) = true) with
    | inl hholds => rw [Batch.sees_of_holds hholds, h.settled hadding, hin key hholds]
    | inr hholds => rw [Batch.sees_of_not_holds hholds, hout key hholds]
  · obtain ⟨item, rest, key, ttl, hrest, hitem, hholds, hfree, hsees⟩ := h.adding hadding
    refine ⟨item, rest, key, ttl, hrest, hitem, hholds, ?_, ?_⟩
    · rw [hin _ hholds]
      exact hfree
    · funext key'
      rw [hin _ hholds]
      cases Classical.em (Tx.holds key' (.batch batch) = true) with
      | inl hholds' =>
        rw [Batch.sees_of_holds hholds', hsees]
        simp only [Function.update_apply]
        rw [hin key' hholds']
      | inr hholds' =>
        have hne : key' ≠ (item.spec.identifier, key) := by
          rintro rfl
          exact hholds' hholds
        rw [Batch.sees_of_not_holds hholds', Function.update_of_ne hne, hout key' hholds']

theorem adds_claim {key : Key} {row : KeyRow} : adds (batch.claim key row).returned = adds batch.returned := by
  cases hid : row.jobId <;> simp [Batch.claim, adds, hid]

theorem claimed_unexpired {now expiresAt : Time} {ttl : ℤ} {jobId : Option JobId} (h : now < expiresAt) :
    claimed now ttl (some ⟨jobId, expiresAt⟩) = ⟨jobId, expiresAt⟩ := if_pos h

/-- An expired row, or none, is claimed anew. -/
theorem claimed_cases (now : Time) (ttl : ℤ) (row? : Option KeyRow) :
    ((∀ row, row? = some row → row.expiresAt ≤ now) ∧ claimed now ttl row? = ⟨none, now + ttl * 1000⟩) ∨
      ∃ row, row? = some row ∧ now < row.expiresAt ∧ claimed now ttl row? = row := by
  cases row? with
  | none => exact .inl ⟨by rintro _ ⟨⟩, rfl⟩
  | some row =>
    cases Classical.em (now < row.expiresAt) with
    | inl hnow => exact .inr ⟨row, rfl, hnow, if_pos hnow⟩
    | inr hnow =>
      refine .inl ⟨?_, if_neg hnow⟩
      rintro _ ⟨⟩
      exact not_lt.mp hnow

theorem claimed_of_jobId {now : Time} {ttl : ℤ} {row? : Option KeyRow} {id : JobId}
    (h : (claimed now ttl row?).jobId = some id) :
    ∃ expiresAt, row? = some ⟨some id, expiresAt⟩ ∧ now < expiresAt ∧
      claimed now ttl row? = ⟨some id, expiresAt⟩ := by
  cases row? with
  | none => cases h
  | some row =>
    obtain ⟨jobId, expiresAt⟩ := row
    simp only [claimed] at h ⊢
    split at h
    · rename_i hnow
      obtain rfl : jobId = some id := h
      exact ⟨expiresAt, rfl, hnow, claimed_unexpired hnow⟩
    · cases h

theorem serves_append {now : Time} {returned : List Returned} (item : Item) (row : Returned)
    (hlength : done.length = returned.length) :
    serves now (done ++ [item]) (returned ++ [row]) = serves now done returned ++ [.serve now item row] := by
  simp [serves, List.zip_append hlength]

/-- The operation of the next item is added to those before it. -/
private theorem Progress.held_append {batch' : Batch} {item : Item} {row : Returned}
    (h : Progress rows batch done seen)
    (hmono : ∀ key, Tx.holds key (.batch batch) = true → Tx.holds key (.batch batch') = true)
    (hitem : ∀ key, item.key = some key → Tx.holds key (.batch batch') = true) :
    ∀ op ∈ serves batch.now done batch.returned ++ [.serve batch.now item row],
      ∀ key, op.touches key → Tx.holds key (.batch batch') = true := by
  intro op hop key htouches
  rw [List.mem_append, List.mem_singleton] at hop
  obtain hop | rfl := hop
  · exact hmono key (h.held op hop key htouches)
  · exact hitem key htouches

theorem Progress.claim {item : Item} {rest : List Item} {key : String} {ttl : ℤ}
    (h : Progress rows batch done seen) (hadding : batch.adding = false)
    (hrest : batch.rest = item :: rest) (hitem : item.idempotency = some (key, ttl)) :
    ∃ done' seen', done' ++ (batch.claim (item.spec.identifier, key)
        (claimed batch.now ttl (batch.sees rows (item.spec.identifier, key)))).rest = done ++ batch.rest ∧
      Progress rows (batch.claim (item.spec.identifier, key)
        (claimed batch.now ttl (batch.sees rows (item.spec.identifier, key)))) done' seen' := by
  have hsettled := h.settled hadding
  have hkey : item.key = some (item.spec.identifier, key) := by simp [Item.key, hitem]
  rw [hsettled]
  generalize hrow : claimed batch.now ttl (seen (item.spec.identifier, key)) = row
  have hsees : (batch.claim (item.spec.identifier, key) row).sees rows =
      Function.update seen (item.spec.identifier, key) (some row) := by
    rw [← hsettled]
    funext key'
    simp only [Batch.claim, Function.update_apply]
    split <;> simp only [Batch.sees, Table.get?_insert] <;> split <;> rfl
  have hmono : ∀ key', Tx.holds key' (.batch batch) = true →
      Tx.holds key' (.batch (batch.claim (item.spec.identifier, key) row)) = true :=
    fun key' hholds => Tx.holds_claim.mpr (.inr hholds)
  have hself : Tx.holds (item.spec.identifier, key)
      (.batch (batch.claim (item.spec.identifier, key) row)) = true := Tx.holds_claim.mpr (.inl rfl)
  cases hid : row.jobId with
  | some id =>
    -- The answer is the job of an unexpired row, which stays as it is.
    obtain ⟨expiresAt, hseen, hnow, heq⟩ := claimed_of_jobId ((congrArg KeyRow.jobId hrow).trans hid)
    obtain rfl := hrow.symm.trans heq
    have hclaim : batch.claim (item.spec.identifier, key) ⟨some id, expiresAt⟩ =
        { batch with
          written := batch.written.insert (item.spec.identifier, key) ⟨some id, expiresAt⟩
          rest := batch.rest.tail
          returned := batch.returned ++ [⟨some id, true⟩] } := rfl
    have hserves : serves batch.now (done ++ [item]) (batch.returned ++ [⟨some id, true⟩]) = _ :=
      serves_append item ⟨some id, true⟩ h.length
    refine ⟨done ++ [item], seen, ?_, ?_, ?_, ?_, ?_, ?_⟩
    · simp [hclaim, hrest]
    · simp [hclaim, h.length]
    · rw [hclaim, hserves]
      exact .snoc h.serial (.duplicate hitem hseen hnow)
    · rw [hclaim, hserves, ← hclaim]
      refine h.held_append hmono fun key' hkey' => ?_
      obtain rfl := Option.some.inj (hkey.symm.trans hkey')
      exact hself
    · intro _
      rw [hsees, ← hseen, Function.update_eq_self]
    · intro hadding'
      simp [hclaim, hadding] at hadding'
  | none =>
    have hclaim : batch.claim (item.spec.identifier, key) row =
        { batch with written := batch.written.insert (item.spec.identifier, key) row, adding := true } := by
      simp only [Batch.claim, hid]
    refine ⟨done, seen, by rw [hclaim], ?_⟩
    constructor
    · rw [hclaim]
      exact h.length
    · rw [hclaim]
      exact h.serial
    · intro op hop key' htouches
      rw [hclaim] at hop
      exact hmono key' (h.held op hop key' htouches)
    · intro hadding'
      rw [hclaim] at hadding'
      cases hadding'
    · intro _
      refine ⟨item, rest, key, ttl, by rw [hclaim, hrest], hitem, hself, ?_, ?_⟩
      · rw [Batch.claim_now, hrow]
        exact hid
      · rw [hsees, Batch.claim_now, hrow]

theorem Progress.addJob {item : Item} {rest : List Item} (id : Option JobId)
    (h : Progress rows batch done seen) (hrest : batch.rest = item :: rest)
    (hadding : batch.adding = true ∨ item.key = none) :
    ∃ seen', Progress rows (batch.addJob item.key id) (done ++ [item]) seen' := by
  have hserves : serves batch.now (done ++ [item]) (batch.returned ++ [⟨id, false⟩]) = _ :=
    serves_append item ⟨id, false⟩ h.length
  have hmono : ∀ key', Tx.holds key' (.batch batch) = true →
      Tx.holds key' (.batch (batch.addJob item.key id)) = true := by
    intro key' hholds
    rwa [Tx.holds_addJob]
  have hlength : (done ++ [item]).length = (batch.addJob item.key id).returned.length := by
    simp [Batch.addJob, h.length]
  cases hadd : batch.adding with
  | false =>
    have hkey : item.key = none := by simpa [hadd] using hadding
    have hitem : item.idempotency = none := by simpa [Item.key] using hkey
    refine ⟨seen, hlength, ?_, ?_, ?_, ?_⟩
    · simp only [Batch.addJob, hserves]
      exact .snoc h.serial (.unkeyed id hitem)
    · simp only [Batch.addJob, hserves]
      refine h.held_append hmono fun key' hkey' => ?_
      rw [hkey] at hkey'
      cases hkey'
    · intro _
      rw [← h.settled hadd, hkey]
      rfl
    · intro hadding'
      cases hadding'
  | true =>
    obtain ⟨item', rest', key, ttl, hrest', hitem, hholds, hfree, hsees⟩ := h.adding hadd
    obtain ⟨rfl, rfl⟩ := List.cons.inj (hrest.symm.trans hrest')
    have hkey : item.key = some (item.spec.identifier, key) := by simp [Item.key, hitem]
    refine ⟨Function.update seen (item.spec.identifier, key)
      (some ⟨id, (claimed batch.now ttl (seen (item.spec.identifier, key))).expiresAt⟩),
      hlength, ?_, ?_, ?_, ?_⟩
    · simp only [Batch.addJob, hserves]
      exact .snoc h.serial (.claim id hitem hfree)
    · simp only [Batch.addJob, hserves]
      refine h.held_append hmono fun key' hkey' => ?_
      obtain rfl := Option.some.inj (hkey.symm.trans hkey')
      exact hmono _ hholds
    · intro _
      -- The recorded id is the only change to the rows that the claim left.
      have hself := congrFun hsees (item.spec.identifier, key)
      obtain ⟨row, hrow⟩ := Option.isSome_iff_exists.mp hholds
      simp only [Batch.sees, hrow, Option.some_or, Function.update_self, Option.some.injEq] at hself
      funext key'
      have hother := congrFun hsees key'
      simp only [Function.update_apply] at hother ⊢
      simp only [Batch.sees, Batch.addJob, hkey, Table.get?_update]
      split
      · rename_i heq
        rw [heq, hrow, hself]
        rfl
      · rename_i hne
        rw [if_neg hne] at hother
        exact hother
    · intro hadding'
      cases hadding'

end

/-! ## The log is an order of the calls -/

variable {s s' : State} {e : Event} {past : Past}

/-- No two transactions hold the row of one key. -/
theorem exclusive (h : system.Reachable s) {k k' : ℕ} {tx tx' : Tx} {key : Key}
    (hget : s.txs.get? k = some tx) (hget' : s.txs.get? k' = some tx') (hne : k ≠ k')
    (hholds : tx.holds key = true) : ¬tx'.holds key = true := by
  have hbegins : system.ReachableWith (fun _ e => Begins Set.univ e) s :=
    h.mono fun _ _ _ _ _ _ => trivial
  obtain ⟨l, hl, hlocks⟩ := exists_locks hbegins
  obtain ⟨locks, hget₁, hheld, -⟩ := hlocks.get hget
  obtain ⟨locks', hget₂, hheld', -⟩ := hlocks.get hget'
  have hdisjoint := (RowLocks.State.inv_reachable hl).disjoint k k' locks locks' hne hget₁ hget₂
  intro hholds'
  exact hdisjoint ((hheld key).mpr hholds) ((hheld' key).mpr hholds')

/-- The committed rows, and what each running transaction is about to commit. -/
structure Logged (s : State) (past : Past) : Prop where
  serial : Serial (fun _ => none) past.ops s.rows.get?
  answered : ∀ entry ∈ past.log, entry.Answered
  calls : ∀ k batch, s.txs.get? k = some (.batch batch) → ∃ done seen,
    past.begun.get? k = some ⟨done ++ batch.rest, adds batch.returned⟩ ∧
    Progress s.rows.get? batch done seen
  prunes : ∀ k prune, s.txs.get? k = some (.prune prune) → ∀ key ∈ prune.locked,
    ∃ row, s.rows.get? key = some row ∧ row.expiresAt ≤ prune.now

/-- The log says what its entries say one after another. -/
theorem Serial.entry {rows rows' : Rows} {entry : Entry} (h : Serial (fun _ => none) past.ops rows)
    (hentry : Serial rows entry.ops rows') {begun : Table ℕ Begun} :
    Serial (fun _ => none) (Past.mk begun (past.log ++ [entry])).ops rows' := by
  simpa [Past.ops] using h.append hentry

theorem Logged.start : Logged ⟨∅, ∅, 0⟩ ⟨∅, []⟩ where
  serial := .nil
  answered entry hmem := by cases hmem
  calls k batch hget := by cases hget
  prunes k prune hget := by cases hget

/-- The rows that the others hold are as before. -/
private theorem Logged.frame {rows : Table Key KeyRow} {txs : Table ℕ Tx} {next k : ℕ}
    (h : Logged s past) {past' : Past} (hserial : Serial (fun _ => none) past'.ops rows.get?)
    (hbegun : ∀ k', k' ≠ k → past'.begun.get? k' = past.begun.get? k')
    (hanswered : ∀ entry ∈ past'.log, entry.Answered)
    (htxs : ∀ k' tx, txs.get? k' = some tx → k' ≠ k → s.txs.get? k' = some tx)
    (hagree : ∀ k' tx key, s.txs.get? k' = some tx → k' ≠ k → tx.holds key = true →
      rows.get? key = s.rows.get? key)
    (hcall : ∀ batch, txs.get? k = some (.batch batch) → ∃ done seen,
      past'.begun.get? k = some ⟨done ++ batch.rest, adds batch.returned⟩ ∧
      Progress rows.get? batch done seen)
    (hprune : ∀ prune, txs.get? k = some (.prune prune) → ∀ key ∈ prune.locked,
      ∃ row, rows.get? key = some row ∧ row.expiresAt ≤ prune.now) :
    Logged ⟨rows, txs, next⟩ past' where
  serial := hserial
  answered := hanswered
  calls k' batch hget := by
    cases Classical.em (k' = k) with
    | inl heq => exact heq ▸ hcall batch (heq ▸ hget)
    | inr hne =>
      have hold := htxs k' _ hget hne
      obtain ⟨done, seen, hitems, hprogress⟩ := h.calls k' batch hold
      obtain ⟨seen', hprogress'⟩ := hprogress.frame fun key => hagree k' _ key hold hne
      exact ⟨done, seen', (hbegun k' hne).trans hitems, hprogress'⟩
  prunes k' prune hget key hmem := by
    cases Classical.em (k' = k) with
    | inl heq => exact hprune prune (heq ▸ hget) key hmem
    | inr hne =>
      have hold := htxs k' _ hget hne
      rw [hagree k' _ key hold hne (by simpa [Tx.holds] using hmem)]
      exact h.prunes k' prune hold key hmem

private theorem Logged.setTx {k next : ℕ} {tx : Tx} {begun : Table ℕ Begun} (h : Logged s past)
    (hbegun : ∀ k', k' ≠ k → begun.get? k' = past.begun.get? k')
    (hcall : ∀ batch, tx = .batch batch → ∃ done seen,
      begun.get? k = some ⟨done ++ batch.rest, adds batch.returned⟩ ∧
      Progress s.rows.get? batch done seen)
    (hprune : ∀ prune, tx = .prune prune → ∀ key ∈ prune.locked,
      ∃ row, s.rows.get? key = some row ∧ row.expiresAt ≤ prune.now) :
    Logged ⟨s.rows, s.txs.insert k tx, next⟩ ⟨begun, past.log⟩ := by
  have hserial : Serial (fun _ => none) (Past.mk begun past.log).ops s.rows.get? := h.serial
  apply h.frame (k := k) hserial hbegun h.answered
  · intro k' tx' hget hne
    rwa [Table.get?_insert_ne hne] at hget
  · intro k' tx' key hget hne hholds
    rfl
  · intro batch hget
    rw [Table.get?_insert_self] at hget
    exact hcall batch (Option.some.inj hget)
  · intro prune hget
    rw [Table.get?_insert_self] at hget
    exact hprune prune (Option.some.inj hget)

private theorem Logged.erase {k : ℕ} {rows : Table Key KeyRow} {log : List Entry} (h : Logged s past)
    (hserial : Serial (fun _ => none) (Past.mk past.begun log).ops rows.get?)
    (hanswered : ∀ entry ∈ log, entry.Answered)
    (hagree : ∀ k' tx key, s.txs.get? k' = some tx → k' ≠ k → tx.holds key = true →
      rows.get? key = s.rows.get? key) :
    Logged ⟨rows, s.txs.erase k, s.next⟩ ⟨past.begun, log⟩ := by
  have hnone : (s.txs.erase k).get? k = none := by simp [Table.get?_erase]
  apply h.frame (k := k) hserial (fun _ _ => rfl) hanswered
  · intro k' tx hget hne
    rwa [Table.get?_erase, if_neg hne] at hget
  · exact hagree
  · intro batch hget
    rw [hnone] at hget
    cases hget
  · intro prune hget
    rw [hnone] at hget
    cases hget

private theorem get?_removed {rows : Table Key KeyRow} {removed : List Key} {key : Key} :
    (rows.filter fun key _ => key ∉ removed).get? key =
      if key ∈ removed then none else rows.get? key := by
  rw [Table.get?_filter]
  split
  · rename_i hmem
    cases rows.get? key <;> simp [hmem]
  · rename_i hmem
    cases rows.get? key <;> simp [hmem]

theorem Logged.exec (h : Logged s past) (hreach : system.Reachable s) (hstep : Step s e s') :
    Logged s' (Past.note s e s' past) := by
  cases hstep with
  | @begin now items =>
    apply h.setTx fun k' hne => Table.get?_insert_ne hne
    · intro batch heq
      cases heq
      exact ⟨[], _, Table.get?_insert_self, .start now items⟩
    · intro prune heq
      cases heq
  | @claim k batch item rest key ttl hget hadding hrest hitem hfree =>
    obtain ⟨done, seen, hitems, hprogress⟩ := h.calls k batch hget
    obtain ⟨done', seen', hdone, hprogress'⟩ := hprogress.claim hadding hrest hitem
    apply h.setTx fun k' hne => rfl
    · intro batch' heq
      cases heq
      refine ⟨done', seen', ?_, hprogress'⟩
      rw [hitems, adds_claim, State.found, ← hdone]
      rfl
    · intro prune heq
      cases heq
  | @addJob k id batch item rest hget hrest hadding =>
    obtain ⟨done, seen, hitems, hprogress⟩ := h.calls k batch hget
    obtain ⟨seen', hprogress'⟩ := hprogress.addJob id hrest hadding
    apply h.setTx
    · intro k' hne
      rw [Table.get?_update, if_neg hne]
    · intro batch' heq
      cases heq
      refine ⟨done ++ [item], seen', ?_, hprogress'⟩
      rw [Table.get?_update, if_pos rfl, hitems]
      simp [Batch.addJob, adds, hrest]
    · intro prune heq
      cases heq
  | @beginPrune now =>
    apply h.setTx fun k' hne => rfl
    · intro batch heq
      cases heq
    · intro prune heq key hmem
      cases heq
      cases hmem
  | @lock k prune key candidates hget hcandidates hfree hexpired =>
    apply h.setTx fun k' hne => rfl
    · intro batch heq
      cases heq
    · intro prune' heq key' hmem
      cases heq
      obtain rfl | hmem := List.mem_cons.mp hmem
      · simpa [Option.any_eq_true] using hexpired
      · exact h.prunes k prune hget key' hmem
  | @skip k prune key candidates hget hcandidates =>
    apply h.setTx fun k' hne => rfl
    · intro batch heq
      cases heq
    · intro prune' heq
      cases heq
      exact h.prunes k prune hget
  | @commitBatch k batch hget hrest hadding =>
    obtain ⟨done, seen, hitems, hprogress⟩ := h.calls k batch hget
    rw [hrest, List.append_nil] at hitems
    have hrows : (s.rows.overwrite batch.written).get? = seen := by
      rw [← hprogress.settled hadding]
      funext key
      exact Table.get?_overwrite
    have hentry : Serial s.rows.get?
        (Entry.call batch.now done (adds batch.returned) batch.returned).ops seen := hprogress.serial
    simp only [Past.note, hget, hitems, Option.getD_some]
    apply h.erase
    · rw [hrows]
      exact h.serial.entry hentry
    · intro entry hmem
      rw [List.mem_append, List.mem_singleton] at hmem
      obtain hmem | rfl := hmem
      · exact h.answered entry hmem
      · exact ⟨hprogress.length.symm, rfl⟩
    · intro k' tx key hget' hne hholds
      have hfree := exclusive hreach hget' hget hne hholds
      rw [Table.get?_overwrite]
      exact Batch.sees_of_not_holds hfree
  | @commitPrune k prune hget hcandidates =>
    simp only [Past.note, hget]
    apply h.erase
    · have hserves := Serves.prune (h.prunes k prune hget)
      have hrows : (s.rows.filter fun key _ => key ∉ prune.locked).get? =
          fun key => if key ∈ prune.locked then none else s.rows.get? key := by
        funext key
        exact get?_removed
      have hentry : Serial s.rows.get? (Entry.prune prune.now prune.locked).ops
          fun key => if key ∈ prune.locked then none else s.rows.get? key := .snoc .nil hserves
      rw [hrows]
      exact h.serial.entry hentry
    · intro entry hmem
      rw [List.mem_append, List.mem_singleton] at hmem
      obtain hmem | rfl := hmem
      · exact h.answered entry hmem
      · trivial
    · intro k' tx key hget' hne hholds
      have hfree := exclusive hreach hget' hget hne hholds
      have hmem : key ∉ prune.locked := by simpa [Tx.holds] using hfree
      rw [get?_removed, if_neg hmem]
  | @rollback k tx hget =>
    exact h.erase h.serial h.answered fun _ _ _ _ _ _ => rfl

theorem logged_reachable (h : logged.Reachable (s, past)) : Logged s past := by
  suffices hall : ∀ p : State × Past, logged.Reachable p → Logged p.1 p.2 from hall (s, past) h
  intro p hp
  refine hp.invariant (I := fun p => Logged p.1 p.2) ?_ ?_
  · rintro ⟨s, past⟩ ⟨rfl, rfl⟩
    exact .start
  · rintro ⟨s, past⟩ e ⟨s', past'⟩ hreach hlogged - hstep
    obtain ⟨hstep, hnote⟩ := TransitionSystem.observe_step_iff.mp hstep
    simp only at hstep hnote ⊢
    rw [hnote]
    exact hlogged.exec (.of_observe (fun _ _ _ => trivial) hreach) (step_of_exec hstep)

/-! ## What one operation after another answers -/

section
variable {rows rows' rows'' : Rows} {op : Op} {ops before after : List Op} {key : Key} {id : Option JobId}
  {expiresAt : Time}

theorem Serves.untouched (h : Serves rows op rows') (htouches : ¬op.touches key) :
    rows' key = rows key := by
  cases h with
  | unkeyed id hitem => rfl
  | duplicate hitem hrow hnow => rfl
  | claim id hitem hfree =>
    apply Function.update_of_ne
    rintro rfl
    exact htouches (by simp [Op.touches, Item.key, hitem])
  | prune hremoved => exact if_neg htouches

/-- An operation that comes before the row expires keeps it, and is answered with its job. -/
theorem Serves.keeps {id : JobId} (h : Serves rows op rows') (hrow : rows key = some ⟨some id, expiresAt⟩)
    (hnow : op.touches key → op.now < expiresAt) :
    rows' key = rows key ∧ (op.touches key → ∃ now item, op = .serve now item ⟨some id, true⟩) := by
  cases Classical.em (op.touches key) with
  | inr huntouched => exact ⟨h.untouched huntouched, fun htouches => absurd htouches huntouched⟩
  | inl htouches =>
    specialize hnow htouches
    cases h with
    | unkeyed id' hitem => simp [Op.touches, Item.key, hitem] at htouches
    | duplicate hitem hrow' hnow' =>
      simp only [Op.touches, Item.key, hitem, Option.map_some, Option.some.injEq] at htouches
      rw [htouches, hrow] at hrow'
      cases hrow'
      exact ⟨rfl, fun _ => ⟨_, _, rfl⟩⟩
    | claim id' hitem hfree =>
      simp only [Op.touches, Item.key, hitem, Option.map_some, Option.some.injEq] at htouches
      simp only [Op.now] at hnow
      rw [htouches, hrow, claimed_unexpired hnow] at hfree
      cases hfree
    | prune hremoved =>
      obtain ⟨row, hrow', hexpired⟩ := hremoved key htouches
      rw [hrow] at hrow'
      cases hrow'
      exact absurd hnow (not_lt.mpr hexpired)

theorem Serves.unique (h : Serves rows op rows') (h' : Serves rows op rows'') : rows' = rows'' := by
  cases h with
  | unkeyed id hitem =>
    cases h' with
    | unkeyed _ _ => rfl
    | claim _ hitem' _ =>
      rw [hitem] at hitem'
      cases hitem'
  | duplicate hitem hrow hnow =>
    cases h' with
    | duplicate _ _ _ => rfl
  | claim id hitem hfree =>
    cases h' with
    | unkeyed _ hitem' =>
      rw [hitem] at hitem'
      cases hitem'
    | claim _ hitem' _ =>
      rw [hitem] at hitem'
      cases hitem'
      rfl
  | prune hremoved =>
    cases h' with
    | prune _ => rfl

theorem serial_snoc (h : Serial rows (ops ++ [op]) rows'') :
    ∃ rows', Serial rows ops rows' ∧ Serves rows' op rows'' := by
  generalize hops : ops ++ [op] = all at h
  cases h with
  | nil => simp at hops
  | snoc h hop =>
    obtain ⟨rfl, heq⟩ := List.append_inj' hops rfl
    obtain rfl := List.singleton_inj.mp heq
    exact ⟨_, h, hop⟩

theorem Serial.split (h : Serial rows (before ++ after) rows'') :
    ∃ rows', Serial rows before rows' ∧ Serial rows' after rows'' := by
  induction after using List.reverseRecOn generalizing rows'' with
  | nil => exact ⟨rows'', by simpa using h, .nil⟩
  | append_singleton after op ih =>
    rw [← List.append_assoc] at h
    obtain ⟨rows₁, h₁, hop⟩ := serial_snoc h
    obtain ⟨rows', hbefore, hafter⟩ := ih h₁
    exact ⟨rows', hbefore, .snoc hafter hop⟩

theorem Serial.unique (h : Serial rows ops rows') (h' : Serial rows ops rows'') : rows' = rows'' := by
  induction h generalizing rows'' with
  | nil =>
    generalize hops : ([] : List Op) = ops at h'
    cases h' with
    | nil => rfl
    | snoc _ _ => simp at hops
  | snoc _ hop ih =>
    obtain ⟨rows₁, h₁, hop'⟩ := serial_snoc h'
    obtain rfl := ih h₁
    exact hop.unique hop'

theorem Serial.keeps {id : JobId} (h : Serial rows ops rows') (hrow : rows key = some ⟨some id, expiresAt⟩)
    (hnow : ∀ op ∈ ops, op.touches key → op.now < expiresAt) : rows' key = rows key := by
  induction h with
  | nil => rfl
  | snoc _ hop ih =>
    have hkept := ih fun op hmem => hnow op (List.mem_append_left _ hmem)
    exact (hop.keeps (hkept.trans hrow) (hnow _ (by simp))).1.trans hkept

theorem serial_cons (h : Serial rows (op :: ops) rows'') :
    ∃ rows', Serves rows op rows' ∧ Serial rows' ops rows'' := by
  have happend : Serial rows ([op] ++ ops) rows'' := h
  obtain ⟨rows', hop, hops⟩ := happend.split
  have hsnoc : Serial rows ([] ++ [op]) rows' := hop
  obtain ⟨rows₁, hnil, hserves⟩ := serial_snoc hsnoc
  obtain rfl := hnil.unique .nil
  exact ⟨rows', hserves, hops⟩

/-- The window that ends at the given time began with an item that added a job. -/
def Opened (before : List Op) (key : Key) (expiresAt : Time) : Prop :=
  ∃ earlier now item ttl id since, before = earlier ++ .serve now item ⟨id, false⟩ :: since ∧
    item.spec.identifier = key.1 ∧ item.idempotency = some (key.2, ttl) ∧
    expiresAt = now + ttl * 1000 ∧ ∀ op ∈ since, op.touches key → op.now < expiresAt

theorem Opened.snoc (h : Opened before key expiresAt) (hop : op.touches key → op.now < expiresAt) :
    Opened (before ++ [op]) key expiresAt := by
  obtain ⟨earlier, now, item, ttl, id, since, rfl, hidentifier, hitem, hexpires, hsince⟩ := h
  refine ⟨earlier, now, item, ttl, id, since ++ [op], by simp, hidentifier, hitem, hexpires, ?_⟩
  intro op' hmem
  rw [List.mem_append, List.mem_singleton] at hmem
  obtain hmem | rfl := hmem
  · exact hsince op' hmem
  · exact hop

theorem Serial.opened (h : Serial (fun _ => none) before rows) {row : KeyRow} (hrow : rows key = some row) :
    Opened before key row.expiresAt := by
  generalize hstart : (fun _ => none : Rows) = start at h
  induction h generalizing row with
  | nil =>
    rw [← hstart] at hrow
    cases hrow
  | @snoc ops op rows₁ rows₂ h hop ih =>
    cases Classical.em (op.touches key) with
    | inr huntouched =>
      rw [hop.untouched huntouched] at hrow
      exact (ih hrow).snoc fun htouches => absurd htouches huntouched
    | inl htouches =>
      cases hop with
      | unkeyed id hitem => simp [Op.touches, Item.key, hitem] at htouches
      | duplicate hitem hrow' hnow =>
        simp only [Op.touches, Item.key, hitem, Option.map_some, Option.some.injEq] at htouches
        rw [htouches, hrow] at hrow'
        cases hrow'
        exact (ih hrow).snoc fun _ => hnow
      | @claim now item key' ttl id hitem hfree =>
        simp only [Op.touches, Item.key, hitem, Option.map_some, Option.some.injEq] at htouches
        rw [← htouches, Function.update_self] at hrow
        obtain rfl := Option.some.inj hrow
        cases claimed_cases now ttl (rows₁ (item.spec.identifier, key')) with
        | inl hfresh =>
          refine ⟨ops, now, item, ttl, id, [], rfl, by rw [← htouches],
            by rw [← htouches, hitem], ?_, ?_⟩
          · rw [hfresh.2]
          · intro op hmem
            cases hmem
        | inr hkept =>
          obtain ⟨row, hrow', hnow, hclaimed⟩ := hkept
          rw [hclaimed]
          rw [htouches] at hrow'
          exact (ih hrow').snoc fun _ => hnow
      | prune hremoved =>
        simp only [Op.touches] at htouches
        simp only [htouches, if_true] at hrow
        cases hrow

/-- The recorded id is that of a job which an item with the key added. -/
theorem Serial.recorded {id : JobId} (h : Serial (fun _ => none) before rows)
    (hrow : rows key = some ⟨some id, expiresAt⟩) :
    ∃ now item, .serve now item ⟨some id, false⟩ ∈ before ∧ item.key = some key := by
  generalize hstart : (fun _ => none : Rows) = start at h
  induction h with
  | nil =>
    rw [← hstart] at hrow
    cases hrow
  | @snoc ops op rows₁ rows₂ h hop ih =>
    have hearlier (hrow' : rows₁ key = some ⟨some id, expiresAt⟩) :
        ∃ now item, .serve now item ⟨some id, false⟩ ∈ ops ++ [op] ∧ item.key = some key := by
      obtain ⟨now, item, hmem, hkey⟩ := ih hrow'
      exact ⟨now, item, List.mem_append_left _ hmem, hkey⟩
    cases hop with
    | unkeyed id hitem => exact hearlier hrow
    | duplicate hitem hrow' hnow => exact hearlier hrow
    | @claim now item key' ttl id' hitem hfree =>
      rw [Function.update_apply] at hrow
      split at hrow
      · rename_i heq
        cases hrow
        exact ⟨now, item, by simp, by simp [Item.key, hitem, heq]⟩
      · exact hearlier hrow
    | prune hremoved =>
      simp only at hrow
      split at hrow
      · cases hrow
      · exact hearlier hrow

/-- What the log says about a key at one point, where its committed row is `row?`. -/
structure Linear (key : Key) (before : List Op) (row? : Option KeyRow) (after : List Op) : Prop where
  /-- The id is that of a job which a committed call added for an item with the key. -/
  recorded : ∀ id expiresAt, row? = some ⟨some id, expiresAt⟩ →
    ∃ now item, .serve now item ⟨some id, false⟩ ∈ before ∧ item.key = some key
  /-- The expiry counts from the item that began the window. -/
  opened : ∀ row, row? = some row → Opened before key row.expiresAt
  /-- An item is a duplicate while all operations on the key come before the row expires. -/
  duplicates : ∀ id expiresAt, row? = some ⟨some id, expiresAt⟩ → ∀ between op later,
    after = between ++ op :: later →
    (∀ op' ∈ between, op'.touches key → op'.now < expiresAt) → op.touches key → op.now < expiresAt →
    ∃ now item, op = .serve now item ⟨some id, true⟩
  /-- An item that comes when the row has expired adds one job and is the new claim. -/
  reopened : ∀ now item returned later, after = .serve now item returned :: later → item.key = some key →
    (∀ id expiresAt, row? = some ⟨some id, expiresAt⟩ → expiresAt ≤ now) →
    returned.deduplicated = false ∧
    ∀ rows', Serial (fun _ => none) (before ++ [.serve now item returned]) rows' →
      ∃ expiresAt, rows' key = some ⟨returned.id, expiresAt⟩ ∧
        ((∀ row, row? = some row → row.expiresAt ≤ now) →
          ∃ ttl, item.idempotency = some (key.2, ttl) ∧ expiresAt = now + ttl * 1000)
  /-- No unexpired row is removed. -/
  pruned : ∀ now removed later, after = .prune now removed :: later → key ∈ removed →
    ∃ row, row? = some row ∧ row.expiresAt ≤ now

theorem Serial.linear (hbefore : Serial (fun _ => none) before rows) (hafter : Serial rows after rows') :
    Linear key before (rows key) after where
  recorded id expiresAt hrow := hbefore.recorded hrow
  opened row hrow := hbefore.opened hrow
  duplicates id expiresAt hrow between op later heq hbetween htouches hnow := by
    rw [heq] at hafter
    obtain ⟨rows₁, h₁, hlater⟩ := hafter.split
    obtain ⟨rows₂, hop, -⟩ := serial_cons hlater
    have hrow₁ := (h₁.keeps hrow hbetween).trans hrow
    exact (hop.keeps hrow₁ fun _ => hnow).2 htouches
  reopened now item returned later heq hkey hexpired := by
    rw [heq] at hafter
    obtain ⟨rows₁, hop, -⟩ := serial_cons hafter
    have hserial := Serial.snoc hbefore hop
    cases hop with
    | unkeyed id hitem => simp [Item.key, hitem] at hkey
    | duplicate hitem hrow hnow =>
      simp only [Item.key, hitem, Option.map_some, Option.some.injEq] at hkey
      rw [hkey] at hrow
      exact absurd hnow (not_lt.mpr (hexpired _ _ hrow))
    | @claim _ _ key' ttl id hitem hfree =>
      refine ⟨rfl, fun rows' h => ?_⟩
      simp only [Item.key, hitem, Option.map_some, Option.some.injEq] at hkey
      obtain rfl := hserial.unique h
      rw [hkey, Function.update_self]
      refine ⟨_, rfl, fun hrows => ⟨ttl, by rw [hitem, ← hkey], ?_⟩⟩
      cases claimed_cases now ttl (rows key) with
      | inl hfresh => rw [hfresh.2]
      | inr hkept =>
        obtain ⟨row, hrow, hnow, -⟩ := hkept
        exact absurd hnow (not_lt.mpr (hrows row hrow))
  pruned now removed later heq hmem := by
    rw [heq] at hafter
    obtain ⟨rows₁, hop, -⟩ := serial_cons hafter
    cases hop with
    | prune hremoved => exact hremoved key hmem

end

/--
The committed calls of `bgw_add_jobs` and prune runs act one after another, in the order of
their commits. Each call has one answer for each item in its place, and adds one job for each item
that is no duplicate. `Linear` says what this makes of a key.
-/
theorem keys_linearizable (h : logged.Reachable (s, past)) :
    (∀ entry ∈ past.log, entry.Answered) ∧ Serial (fun _ => none) past.ops s.rows.get? ∧
      ∀ before after rows, past.ops = before ++ after → Serial (fun _ => none) before rows →
        ∀ key, Linear key before (rows key) after := by
  have hlogged := logged_reachable h
  refine ⟨hlogged.answered, hlogged.serial, fun before after rows hops hbefore key => ?_⟩
  have hserial := hlogged.serial
  rw [hops] at hserial
  obtain ⟨rows', hbefore', hafter⟩ := hserial.split
  obtain rfl := hbefore.unique hbefore'
  exact hbefore.linear hafter

/-! ## A call that began long ago -/

namespace LogTrace

/-- The second call began within the TTL, and claims its key when a prune run after the TTL is over. -/
def overtaken : List Event :=
  [.begin 0 [DeadlockTrace.item "a"], .claim 0, .addJob 0 (some 1), .commit 0,
    .begin 5 [DeadlockTrace.item "a"], .beginPrune 2000000, .lock 2, .commit 2,
    .claim 1, .addJob 1 (some 2), .commit 1]

/-- Two items with one key add a job each, the second within the TTL of the first. -/
def addsTwice : List Op → Bool
  | [.serve now ⟨spec, some (key, ttl)⟩ ⟨some _, false⟩, .prune _ _, .serve now' item' ⟨_, false⟩] =>
    item'.key = some (spec.identifier, key) ∧ now' < now + ttl * 1000
  | _ => false

end LogTrace

private theorem exists_overtaken :
    ∃ p : State × Past, logged.Reachable p ∧ LogTrace.addsTwice p.2.ops = true :=
  logged.exists_reachable_of_run LogTrace.overtaken (fun p => LogTrace.addsTwice p.2.ops)
    (s := (⟨∅, ∅, 0⟩, ⟨∅, []⟩)) ⟨rfl, rfl⟩ (by decide)

theorem keys_linearizable_overtaken : ∃ s past, logged.Reachable (s, past) ∧
    LogTrace.addsTwice past.ops = true ∧ (∀ entry ∈ past.log, entry.Answered) ∧
    Serial (fun _ => none) past.ops s.rows.get? ∧
    ∀ before after rows, past.ops = before ++ after → Serial (fun _ => none) before rows →
      ∀ key, Linear key before (rows key) after := by
  obtain ⟨⟨s, past⟩, hreach, hadds⟩ := exists_overtaken
  exact ⟨s, past, hreach, hadds, keys_linearizable hreach⟩

/-- A later call whose `now()` is before the expiry can add a second job. -/
theorem keys_not_linearizable :
    ¬∀ s past, logged.Reachable (s, past) → ∀ before after rows key id expiresAt,
      past.ops = before ++ after → Serial (fun _ => none) before rows →
      rows key = some ⟨some id, expiresAt⟩ → ∀ now item returned, .serve now item returned ∈ after →
      item.key = some key → now < expiresAt → returned = ⟨some id, true⟩ := by
  intro hclaim
  obtain ⟨⟨s, past⟩, hreach, hadds⟩ := exists_overtaken
  generalize hops : past.ops = ops at hadds
  unfold LogTrace.addsTwice at hadds
  split at hadds
  · rename_i now spec key ttl id now' removed now'' item' id'
    obtain ⟨hkey, hnow⟩ := of_decide_eq_true hadds
    have hserial : Serial (fun _ => none) [.serve now ⟨spec, some (key, ttl)⟩ ⟨some id, false⟩]
        (Function.update (fun _ => none) (spec.identifier, key) (some ⟨some id, now + ttl * 1000⟩)) :=
      .snoc .nil (.claim (some id) rfl rfl)
    have hreturned := hclaim s past hreach [_] _ _ _ id (now + ttl * 1000) hops hserial
      (Function.update_self ..) now'' item' ⟨id', false⟩ (by simp) hkey hnow
    cases hreturned
  · cases hadds

end BetterGraphileWorker.IdempotencyKeys
