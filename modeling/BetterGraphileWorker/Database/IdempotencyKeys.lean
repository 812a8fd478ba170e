-- SUMMARY: bgw_idempotency_keys: concurrent bgw_add_jobs calls and pruneIdempotencyKeys, and the batches that never deadlock.
import BetterGraphileWorker.Database.Graphile
import BetterGraphileWorker.Library.Locks

/-!
# Idempotency keys

`bgw_add_jobs` goes through the items of its batch in order. The key of an item is claimed
with `INSERT ... ON CONFLICT DO UPDATE`, which waits for a transaction that holds the row
and then reads the committed one; the job id is recorded in a later statement. Every call
is a transaction of its own and keeps its rows locked to its end.

Claims run in the order of the items and nothing sorts these, so two batches deadlock if
each has claimed a key that the other one comes to later. `RowLocks.Knotted` says for which
orders of keys this can happen.
-/

namespace BetterGraphileWorker.IdempotencyKeys

/-- The primary key: the queue and the key. -/
abbrev Key := String × String

structure KeyRow where
  jobId : Option JobId
  expiresAt : Time

/-- An item of a batch: the arguments of `add_job`, and the key with its TTL in milliseconds. -/
structure Item where
  spec : JobSpec
  idempotency : Option (String × ℤ)

def Item.key (item : Item) : Option Key :=
  item.idempotency.map fun (key, _) => (item.spec.identifier, key)

/-- The row that a claim leaves: an unexpired one keeps its job id, an expired one is reclaimed. -/
def claimed (now : Time) (ttl : ℤ) : Option KeyRow → KeyRow
  | some row => if now < row.expiresAt then row else ⟨none, now + ttl * 1000⟩
  | none => ⟨none, now + ttl * 1000⟩

/-- A row that `bgw_add_jobs` returns; the id is null where `add_job` returned no row. -/
structure Returned where
  id : Option JobId
  deduplicated : Bool
deriving DecidableEq

/-- A call of `bgw_add_jobs`. -/
structure Batch where
  /-- The start of the transaction. -/
  now : Time
  /-- The key rows that it has written and holds. -/
  written : Table Key KeyRow
  rest : List Item
  /-- The key of the next item is claimed and has no job id: `add_job` comes next. -/
  adding : Bool
  returned : List Returned

/-- A run of `pruneIdempotencyKeys`. -/
structure Prune where
  now : Time
  locked : List Key
  /-- Expired rows of its snapshot that it comes to. -/
  candidates : List Key

inductive Tx where
  | batch (batch : Batch)
  | prune (prune : Prune)

/-- The transaction holds the lock of the key's row. -/
def Tx.holds (key : Key) : Tx → Bool
  | .batch call => (call.written.get? key).isSome
  | .prune sweep => key ∈ sweep.locked

structure State where
  /-- The committed rows. -/
  rows : Table Key KeyRow
  txs : Table ℕ Tx
  next : ℕ

inductive Event where
  | begin (now : Time) (items : List Item)
  /-- The claim of the next item. -/
  | claim (k : ℕ)
  /-- `add_job` for the next item, the id of the row it returned, and the record of that under its key. -/
  | addJob (k : ℕ) (id : Option JobId)
  | beginPrune (now : Time)
  /-- `FOR UPDATE SKIP LOCKED` reaches its next candidate. -/
  | lock (k : ℕ)
  | commit (k : ℕ)
  /-- A failed statement or a lost connection. -/
  | rollback (k : ℕ)

namespace State

variable (s : State)

def free (k : ℕ) (key : Key) : Bool := !s.txs.any fun k' tx => k' ≠ k && tx.holds key

def begin (tx : Tx) : State := { s with txs := s.txs.insert s.next tx, next := s.next + 1 }

def setTx (k : ℕ) (tx : Tx) : State := { s with txs := s.txs.insert k tx }

/-- The row that a claim of the batch finds once nobody else holds it. -/
def found (batch : Batch) (key : Key) : Option KeyRow :=
  (batch.written.get? key).or (s.rows.get? key)

end State

/-- The claim of the item wrote the row: a job id in it answers the item. -/
def Batch.claim (batch : Batch) (key : Key) (row : KeyRow) : Batch :=
  let written := batch.written.insert key row
  match row.jobId with
  | some id =>
    { batch with written, rest := batch.rest.tail, returned := batch.returned ++ [⟨some id, true⟩] }
  | none => { batch with written, adding := true }

/-- What `add_job` returned is recorded under the key of the item if it has one. -/
def Batch.addJob (batch : Batch) (key : Option Key) (id : Option JobId) : Batch :=
  { batch with
    written := match key with
      | some key => batch.written.update key fun row => { row with jobId := id }
      | none => batch.written
    rest := batch.rest.tail
    adding := false
    returned := batch.returned ++ [⟨id, false⟩] }

def State.exec (s : State) : Event → Option State
  | .begin now items => some (s.begin (.batch ⟨now, ∅, items, false, []⟩))
  | .claim k =>
    match s.txs.get? k with
    | some (.batch batch) =>
      match batch.adding, batch.rest with
      | false, ⟨spec, some (key, ttl)⟩ :: _ =>
        let key := (spec.identifier, key)
        if s.free k key then
          some (s.setTx k (.batch (batch.claim key (claimed batch.now ttl (s.found batch key)))))
        else none
      | _, _ => none
    | _ => none
  | .addJob k id =>
    match s.txs.get? k with
    | some (.batch batch) =>
      match batch.rest with
      | item :: _ =>
        if batch.adding ∨ item.key = none then
          some (s.setTx k (.batch (batch.addJob item.key id)))
        else none
      | [] => none
    | _ => none
  | .beginPrune now =>
    some (s.begin (.prune ⟨now, [], s.rows.keys fun _ row => row.expiresAt ≤ now⟩))
  | .lock k =>
    match s.txs.get? k with
    | some (.prune prune) =>
      match prune.candidates with
      | key :: candidates =>
        -- A row that changed since the snapshot is checked again.
        let expired := (s.rows.get? key).any fun row => row.expiresAt ≤ prune.now
        let locked := if s.free k key && expired then key :: prune.locked else prune.locked
        some (s.setTx k (.prune { prune with locked, candidates }))
      | [] => none
    | _ => none
  | .commit k =>
    match s.txs.get? k with
    | some (.batch ⟨_, written, [], false, _⟩) =>
      some { s with rows := s.rows.overwrite written, txs := s.txs.erase k }
    | some (.prune ⟨_, locked, []⟩) =>
      some { s with rows := s.rows.filter fun key _ => key ∉ locked, txs := s.txs.erase k }
    | _ => none
  | .rollback k =>
    match s.txs.get? k with
    | some _ => some { s with txs := s.txs.erase k }
    | none => none

/-- Any number of calls and prune runs on one database. -/
def system : TransitionSystem State Event where
  Init s := s = ⟨∅, ∅, 0⟩
  step s e := s.exec e

/-- The first transaction has to claim a key whose row the second one holds. -/
def State.WaitsFor (s : State) (k k' : ℕ) : Prop :=
  k ≠ k' ∧ ∃ batch tx' item rest key, s.txs.get? k = some (.batch batch) ∧ s.txs.get? k' = some tx' ∧
    batch.adding = false ∧ batch.rest = item :: rest ∧ item.key = some key ∧ tx'.holds key = true

/-- The calls of the run take their items from these batches. -/
def Begins (batches : Set (List Item)) (e : Event) : Prop :=
  ∀ now items, e = .begin now items → items ∈ batches

variable {s s' : State} {e : Event} {k k' : ℕ} {tx : Tx} {key : Key} {batches : Set (List Item)}

/-! ## What a step does -/

inductive Step (s : State) : Event → State → Prop where
  | begin {now : Time} {items : List Item} :
      Step s (.begin now items) (s.begin (.batch ⟨now, ∅, items, false, []⟩))
  | claim {k : ℕ} {batch : Batch} {item : Item} {rest : List Item} {key : String} {ttl : ℤ}
      (hget : s.txs.get? k = some (.batch batch)) (hadding : batch.adding = false)
      (hrest : batch.rest = item :: rest) (hitem : item.idempotency = some (key, ttl))
      (hfree : s.free k (item.spec.identifier, key) = true) :
      Step s (.claim k) (s.setTx k (.batch (batch.claim (item.spec.identifier, key)
        (claimed batch.now ttl (s.found batch (item.spec.identifier, key))))))
  | addJob {k : ℕ} {id : Option JobId} {batch : Batch} {item : Item} {rest : List Item}
      (hget : s.txs.get? k = some (.batch batch)) (hrest : batch.rest = item :: rest)
      (hadding : batch.adding = true ∨ item.key = none) :
      Step s (.addJob k id) (s.setTx k (.batch (batch.addJob item.key id)))
  | beginPrune {now : Time} :
      Step s (.beginPrune now)
        (s.begin (.prune ⟨now, [], s.rows.keys fun _ row => row.expiresAt ≤ now⟩))
  | lock {k : ℕ} {prune : Prune} {key : Key} {candidates : List Key}
      (hget : s.txs.get? k = some (.prune prune)) (hcandidates : prune.candidates = key :: candidates)
      (hfree : s.free k key = true)
      (hexpired : ((s.rows.get? key).any fun row => row.expiresAt ≤ prune.now) = true) :
      Step s (.lock k) (s.setTx k (.prune { prune with locked := key :: prune.locked, candidates }))
  | skip {k : ℕ} {prune : Prune} {key : Key} {candidates : List Key}
      (hget : s.txs.get? k = some (.prune prune)) (hcandidates : prune.candidates = key :: candidates) :
      Step s (.lock k) (s.setTx k (.prune { prune with candidates }))
  | commitBatch {k : ℕ} {batch : Batch} (hget : s.txs.get? k = some (.batch batch))
      (hrest : batch.rest = []) (hadding : batch.adding = false) :
      Step s (.commit k) { s with rows := s.rows.overwrite batch.written, txs := s.txs.erase k }
  | commitPrune {k : ℕ} {prune : Prune} (hget : s.txs.get? k = some (.prune prune))
      (hcandidates : prune.candidates = []) :
      Step s (.commit k)
        { s with rows := s.rows.filter fun key _ => key ∉ prune.locked, txs := s.txs.erase k }
  | rollback {k : ℕ} {tx : Tx} (hget : s.txs.get? k = some tx) :
      Step s (.rollback k) { s with txs := s.txs.erase k }

theorem step_of_exec (h : s.exec e = some s') : Step s e s' := by
  cases e with
  | begin now items =>
    obtain rfl := Option.some.inj h
    exact .begin
  | claim k =>
    simp only [State.exec] at h
    split at h
    · rename_i batch hget
      split at h
      · rename_i spec key ttl rest hadding hrest
        simp only [Option.ite_none_right_eq_some, Option.some.injEq] at h
        obtain ⟨hfree, rfl⟩ := h
        exact .claim hget hadding hrest rfl hfree
      · cases h
    · cases h
  | addJob k id =>
    simp only [State.exec] at h
    split at h
    · rename_i batch hget
      split at h
      · rename_i item rest hrest
        simp only [Option.ite_none_right_eq_some, Option.some.injEq] at h
        obtain ⟨hadding, rfl⟩ := h
        exact .addJob hget hrest hadding
      · cases h
    · cases h
  | beginPrune now =>
    obtain rfl := Option.some.inj h
    exact .beginPrune
  | lock k =>
    simp only [State.exec] at h
    split at h
    · rename_i prune hget
      split at h
      · rename_i key candidates hcandidates
        split at h
        · rename_i hlock
          obtain ⟨hfree, hexpired⟩ := Bool.and_eq_true_iff.mp hlock
          obtain rfl := Option.some.inj h
          exact .lock hget hcandidates hfree hexpired
        · obtain rfl := Option.some.inj h
          exact .skip hget hcandidates
      · cases h
    · cases h
  | commit k =>
    simp only [State.exec] at h
    split at h
    · rename_i hget
      obtain rfl := Option.some.inj h
      exact .commitBatch hget rfl rfl
    · rename_i hget
      obtain rfl := Option.some.inj h
      exact .commitPrune hget rfl
    · cases h
  | rollback k =>
    simp only [State.exec] at h
    split at h
    · rename_i hget
      obtain rfl := Option.some.inj h
      exact .rollback hget
    · cases h

theorem State.free_iff : s.free k key = true ↔
    ∀ k' tx, s.txs.get? k' = some tx → k' ≠ k → tx.holds key = false := by
  simp only [State.free, Bool.not_eq_true', Table.any_eq_false_iff, Bool.and_eq_false_iff,
    decide_eq_false_iff_not, not_not]
  grind

/-! ## The locks that a run takes -/

/-- The requests of the keyed items. -/
def keyRequests (items : List Item) : List (RowLocks.Request Key) :=
  items.filterMap fun item => item.key.map (⟨·, false⟩)

/-- The locks that a transaction has still to take. -/
def Tx.requests : Tx → List (RowLocks.Request Key)
  | .batch call => keyRequests (if call.adding then call.rest.tail else call.rest)
  | .prune sweep => sweep.candidates.map (⟨·, true⟩)

/-- A prune run takes optional locks only. -/
def programs (batches : Set (List Item)) : Set (List (RowLocks.Request Key)) :=
  keyRequests '' batches ∪ {program | ∀ request ∈ program, request.optional = true}

structure Tx.Locks (tx : Tx) (locks : RowLocks.Tx Key) : Prop where
  held : ∀ key, key ∈ locks.held ↔ tx.holds key = true
  rest : locks.rest = tx.requests

/-- The transactions of a state of the row locks are those of the database. -/
structure State.Locks (s : State) (l : RowLocks.State Key) : Prop where
  next : l.next = s.next
  txs : ∀ k, Option.Rel Tx.Locks (s.txs.get? k) (l.txs.get? k)

variable {l : RowLocks.State Key} {locks : RowLocks.Tx Key}

theorem Tx.holds_claim {batch : Batch} {row : KeyRow} {key' : Key} :
    Tx.holds key' (.batch (batch.claim key row)) = true ↔
      key' = key ∨ Tx.holds key' (.batch batch) = true := by
  simp only [Tx.holds, Batch.claim]
  split <;> simp only [Table.get?_insert] <;> split <;> simp_all

theorem Tx.holds_addJob {batch : Batch} {key? : Option Key} {id : Option JobId} {key' : Key} :
    Tx.holds key' (.batch (batch.addJob key? id)) = Tx.holds key' (.batch batch) := by
  simp only [Tx.holds, Batch.addJob]
  cases key? with
  | none => rfl
  | some key =>
    simp only [Table.get?_update]
    split <;> simp [*]

theorem State.Locks.free (h : s.Locks l) : l.free k key = s.free k key := by
  rw [Bool.eq_iff_iff, RowLocks.State.free_iff, State.free_iff]
  constructor
  · intro hfree k' tx hget hne
    have hrel := h.txs k'
    rw [hget] at hrel
    generalize hl : l.txs.get? k' = locks at hrel
    cases hrel with
    | some hlocks => simpa [hlocks.held] using hfree k' _ hl hne
  · intro hfree k' locks hget hne
    have hrel := h.txs k'
    rw [hget] at hrel
    generalize hs : s.txs.get? k' = tx at hrel
    cases hrel with
    | some hlocks => simpa [hlocks.held] using hfree k' _ hs hne

theorem State.Locks.get (h : s.Locks l) (hget : s.txs.get? k = some tx) :
    ∃ locks, l.txs.get? k = some locks ∧ tx.Locks locks := by
  have hrel := h.txs k
  rw [hget] at hrel
  generalize hl : l.txs.get? k = locks at hrel
  cases hrel with
  | some hlocks => exact ⟨_, rfl, hlocks⟩

theorem State.Locks.setTx (h : s.Locks l) (locks : RowLocks.Tx Key) (hlocks : tx.Locks locks) :
    (s.setTx k tx).Locks { l with txs := l.txs.insert k locks } where
  next := h.next
  txs k' := by
    simp only [State.setTx, Table.get?_insert]
    split
    · exact .some hlocks
    · exact h.txs k'

theorem State.Locks.begin (h : s.Locks l) (locks : RowLocks.Tx Key) (hlocks : tx.Locks locks) :
    (s.begin tx).Locks { txs := l.txs.insert l.next locks, next := l.next + 1 } where
  next := by rw [h.next]; rfl
  txs k' := by
    simp only [State.begin, Table.get?_insert, h.next]
    split
    · exact .some hlocks
    · exact h.txs k'

theorem State.Locks.erase {rows : Table Key KeyRow} (h : s.Locks l) :
    State.Locks { s with rows, txs := s.txs.erase k } { l with txs := l.txs.erase k } where
  next := h.next
  txs k' := by
    simp only [Table.get?_erase]
    split
    · exact .none
    · exact h.txs k'

/-- The transaction goes on with the locks that it has. -/
theorem State.Locks.keep (h : s.Locks l) (hget : l.txs.get? k = some locks)
    (hlocks : tx.Locks locks) : (s.setTx k tx).Locks l where
  next := h.next
  txs k' := by
    simp only [State.setTx, Table.get?_insert]
    split
    · rename_i heq
      rw [heq, hget]
      exact .some hlocks
    · exact h.txs k'

theorem keyRequests_cons {item : Item} {rest : List Item} : keyRequests (item :: rest) =
    (item.key.map (⟨·, false⟩)).toList ++ keyRequests rest := by
  rw [keyRequests, List.filterMap_cons]
  cases item.key <;> rfl

theorem requests_claim {batch : Batch} {item : Item} {rest : List Item} {row : KeyRow}
    (hrest : batch.rest = item :: rest) (hadding : batch.adding = false) :
    Tx.requests (.batch (batch.claim key row)) = keyRequests rest := by
  cases hid : row.jobId <;> simp [Tx.requests, Batch.claim, hid, hrest, hadding]

theorem requests_addJob {batch : Batch} {item : Item} {rest : List Item} {id : Option JobId}
    (hrest : batch.rest = item :: rest) (hadding : batch.adding = true ∨ item.key = none) :
    Tx.requests (.batch (batch.addJob item.key id)) = Tx.requests (.batch batch) := by
  simp only [Tx.requests, Batch.addJob, hrest, List.tail_cons]
  cases hadd : batch.adding with
  | true => rfl
  | false =>
    have hkey : item.key = none := by simpa [hadd] using hadding
    simp [keyRequests_cons, hkey]

/-- A step of the database takes at most one step of the row locks. -/
theorem State.Locks.exec (h : s.Locks l) (hbegins : Begins batches e) (hstep : Step s e s') :
    ∃ l', s'.Locks l' ∧
      (l' = l ∨ ∃ e', RowLocks.Starts (programs batches) e' ∧ l.exec e' = some l') := by
  cases hstep with
  | @begin now items =>
    refine ⟨_, h.begin ⟨[], keyRequests items⟩ ⟨by simp [Tx.holds], rfl⟩, .inr ?_⟩
    refine ⟨.start (keyRequests items), ?_, rfl⟩
    intro program heq
    cases heq
    exact .inl ⟨items, hbegins now items rfl, rfl⟩
  | @claim k batch item rest key ttl hget hadding hrest hitem hfree =>
    obtain ⟨⟨held, requests⟩, hl, hheld, hrequests⟩ := h.get hget
    have hkey : item.key = some (item.spec.identifier, key) := by simp [Item.key, hitem]
    have hnext : requests = ⟨(item.spec.identifier, key), false⟩ :: keyRequests rest := by
      simpa [Tx.requests, hadding, hrest, keyRequests_cons, hkey] using hrequests
    refine ⟨_, h.setTx ⟨(item.spec.identifier, key) :: held, keyRequests rest⟩ ⟨?_, ?_⟩,
      .inr ⟨.take k, by rintro _ ⟨⟩, ?_⟩⟩
    · intro key'
      rw [Tx.holds_claim, List.mem_cons, hheld]
    · rw [requests_claim hrest hadding]
    · simp [RowLocks.State.exec, RowLocks.State.take, hl, hnext, h.free, hfree]
  | @addJob k id batch item rest hget hrest hadding =>
    obtain ⟨locks, hl, hheld, hrequests⟩ := h.get hget
    refine ⟨l, h.keep hl ⟨fun key => ?_, ?_⟩, .inl rfl⟩
    · rw [Tx.holds_addJob, hheld]
    · rw [requests_addJob hrest hadding, hrequests]
  | @beginPrune now =>
    refine ⟨_, h.begin ⟨[], _⟩ ⟨by simp [Tx.holds], rfl⟩, .inr ⟨.start _, ?_, rfl⟩⟩
    intro program heq
    cases heq
    apply Or.inr
    intro request hmem
    obtain ⟨key, -, rfl⟩ := List.mem_map.mp hmem
    rfl
  | @lock k prune key candidates hget hcandidates hfree hexpired =>
    obtain ⟨⟨held, requests⟩, hl, hheld, hrequests⟩ := h.get hget
    have hnext : requests = ⟨key, true⟩ :: candidates.map (⟨·, true⟩) := by
      simpa [Tx.requests, hcandidates] using hrequests
    refine ⟨_, h.setTx ⟨key :: held, candidates.map (⟨·, true⟩)⟩ ⟨?_, rfl⟩,
      .inr ⟨.take k, by rintro _ ⟨⟩, ?_⟩⟩
    · intro key'
      have hheld' := hheld key'
      simp only [Tx.holds, decide_eq_true_eq, List.mem_cons] at hheld' ⊢
      rw [hheld']
    · simp [RowLocks.State.exec, RowLocks.State.take, hl, hnext, h.free, hfree]
  | @skip k prune key candidates hget hcandidates =>
    obtain ⟨⟨held, requests⟩, hl, hheld, hrequests⟩ := h.get hget
    have hnext : requests = ⟨key, true⟩ :: candidates.map (⟨·, true⟩) := by
      simpa [Tx.requests, hcandidates] using hrequests
    refine ⟨_, h.setTx ⟨held, candidates.map (⟨·, true⟩)⟩ ⟨hheld, rfl⟩,
      .inr ⟨.pass k, by rintro _ ⟨⟩, ?_⟩⟩
    simp [RowLocks.State.exec, RowLocks.State.pass, hl, hnext]
  | @commitBatch k batch hget hrest hadding =>
    obtain ⟨locks, hl, -⟩ := h.get hget
    exact ⟨_, h.erase, .inr ⟨.finish k, by rintro _ ⟨⟩, by simp [RowLocks.State.exec, hl]⟩⟩
  | @commitPrune k prune hget hcandidates =>
    obtain ⟨locks, hl, -⟩ := h.get hget
    exact ⟨_, h.erase, .inr ⟨.finish k, by rintro _ ⟨⟩, by simp [RowLocks.State.exec, hl]⟩⟩
  | @rollback k tx hget =>
    obtain ⟨locks, hl, -⟩ := h.get hget
    exact ⟨_, h.erase, .inr ⟨.finish k, by rintro _ ⟨⟩, by simp [RowLocks.State.exec, hl]⟩⟩

theorem exists_locks (hreach : system.ReachableWith (fun _ e => Begins batches e) s) :
    ∃ l, RowLocks.system.ReachableWith (fun _ e => RowLocks.Starts (programs batches) e) l ∧
      s.Locks l := by
  induction hreach with
  | @init s hinit =>
    obtain rfl : s = ⟨∅, ∅, 0⟩ := hinit
    exact ⟨⟨∅, 0⟩, .init rfl, rfl, fun _ => .none⟩
  | step _ hbegins hexec ih =>
    obtain ⟨l, hl, hlocks⟩ := ih
    obtain ⟨l', hlocks', rfl | ⟨e', hstarts, hexec'⟩⟩ := hlocks.exec hbegins (step_of_exec hexec)
    · exact ⟨l', hl, hlocks'⟩
    · exact ⟨l', .step hl hstarts hexec', hlocks'⟩

theorem State.Locks.waitsFor (h : s.Locks l) (hwaits : s.WaitsFor k k') : l.WaitsFor k k' := by
  obtain ⟨hne, batch, tx', item, rest, key, hget, hget', hadding, hrest, hkey, hholds⟩ := hwaits
  obtain ⟨locks, hl, -, hrequests⟩ := h.get hget
  obtain ⟨locks', hl', hheld', -⟩ := h.get hget'
  refine ⟨hne, locks, locks', key, keyRequests rest, hl, hl', ?_, (hheld' key).mpr hholds⟩
  rw [hrequests]
  simp [Tx.requests, hadding, hrest, keyRequests_cons, hkey]

/-- The prune runs are in no knot: they have no required lock. -/
theorem knotted_of_programs (h : RowLocks.Knotted (programs batches)) :
    RowLocks.Knotted (keyRequests '' batches) := by
  obtain ⟨ps, hne, hdisjoint, hps⟩ := h
  refine ⟨ps, hne, hdisjoint, fun p hp => ?_⟩
  obtain ⟨hown, hother, requests, rest, hprogram | hoptional, htakes⟩ := hps p hp
  · exact ⟨hown, hother, requests, rest, hprogram, htakes⟩
  · have := hoptional ⟨p.2, false⟩ (by simp)
    cases this

/-! ## Every run of the locks has its calls -/

/-- A call that has a key to claim next, or is done. -/
def Tx.AtKey : Tx → Prop
  | .batch call => call.adding = false ∧ ∀ item rest, call.rest = item :: rest → item.key ≠ none
  | .prune _ => False

def State.AtKeys (s : State) : Prop := ∀ k tx, s.txs.get? k = some tx → tx.AtKey

/-- A call enqueues the items without a key until it comes to one with a key. -/
private theorem exists_atKeys : ∀ (rest : List Item) {s : State} {batch : Batch},
    system.ReachableWith (fun _ e => Begins batches e) s → s.Locks l →
    s.txs.get? k = some (.batch batch) → batch.rest = rest → batch.adding = false →
    (∀ k' tx, k' ≠ k → s.txs.get? k' = some tx → tx.AtKey) →
    ∃ s', system.ReachableWith (fun _ e => Begins batches e) s' ∧ s'.Locks l ∧ s'.AtKeys
  | [], s, batch, hr, hlocks, hget, hrest, hadding, hothers => by
    refine ⟨s, hr, hlocks, fun k' tx hget' => ?_⟩
    cases Classical.em (k' = k) with
    | inr hne => exact hothers k' tx hne hget'
    | inl heq =>
      rw [heq, hget] at hget'
      cases hget'
      exact ⟨hadding, fun item rest heq' => by simp [hrest] at heq'⟩
  | item :: rest, s, batch, hr, hlocks, hget, hrest, hadding, hothers => by
    cases hkey : item.key with
    | some key =>
      refine ⟨s, hr, hlocks, fun k' tx hget' => ?_⟩
      cases Classical.em (k' = k) with
      | inr hne => exact hothers k' tx hne hget'
      | inl heq =>
        rw [heq, hget] at hget'
        cases hget'
        refine ⟨hadding, fun item' rest' heq' => ?_⟩
        rw [hrest] at heq'
        cases heq'
        simp [hkey]
    | none =>
      have hstep : system.step s (.addJob k (some 0)) =
          some (s.setTx k (.batch (batch.addJob item.key (some 0)))) := by
        simp [system, State.exec, hget, hrest, hkey]
      obtain ⟨locks, hl, hheld, hrequests⟩ := hlocks.get hget
      have hbegins : Begins batches (.addJob k (some 0)) := by rintro _ _ ⟨⟩
      refine exists_atKeys rest (.step hr hbegins hstep) (hlocks.keep hl ⟨fun key => ?_, ?_⟩)
        Table.get?_insert_self ?_ rfl fun k' tx hne hget' => hothers k' tx hne ?_
      · rw [Tx.holds_addJob, hheld]
      · rw [requests_addJob hrest (.inr hkey), hrequests]
      · simp [Batch.addJob, hrest]
      · rwa [State.setTx, Table.get?_insert_ne hne] at hget'

theorem State.Locks.get' (h : s.Locks l) (hget : l.txs.get? k = some locks) :
    ∃ tx, s.txs.get? k = some tx ∧ tx.Locks locks := by
  have hrel := h.txs k
  rw [hget] at hrel
  generalize hs : s.txs.get? k = tx at hrel
  cases hrel with
  | some hlocks => exact ⟨_, rfl, hlocks⟩

/-- A transaction with a lock to take next is a call with a key to claim next. -/
private theorem next_item (hlocks : s.Locks l) (hatKeys : s.AtKeys) {held : List Key}
    {request : RowLocks.Request Key} {rest : List (RowLocks.Request Key)}
    (hget : l.txs.get? k = some ⟨held, request :: rest⟩) :
    ∃ batch item items key ttl, s.txs.get? k = some (.batch batch) ∧ batch.adding = false ∧
      batch.rest = item :: items ∧ item.idempotency = some (key, ttl) ∧
      request = ⟨(item.spec.identifier, key), false⟩ ∧ rest = keyRequests items ∧
      ∀ key', key' ∈ held ↔ Tx.holds key' (.batch batch) = true := by
  obtain ⟨tx, hs, hheld, hrequests⟩ := hlocks.get' hget
  have hatKey := hatKeys k tx hs
  cases tx with
  | prune sweep => exact hatKey.elim
  | batch batch =>
    obtain ⟨hadding, hkeyed⟩ := hatKey
    simp only [Tx.requests, hadding, Bool.false_eq_true, if_false] at hrequests
    cases hrest : batch.rest with
    | nil => simp [hrest, keyRequests] at hrequests
    | cons item items =>
      cases hitem : item.idempotency with
      | none => exact absurd (by simp [Item.key, hitem]) (hkeyed item items hrest)
      | some pair =>
        obtain ⟨key, ttl⟩ := pair
        have hkey : item.key = some (item.spec.identifier, key) := by simp [Item.key, hitem]
        simp only [hrest, keyRequests_cons, hkey, Option.map_some, Option.toList_some,
          List.singleton_append, List.cons.injEq] at hrequests
        exact ⟨batch, item, items, key, ttl, hs, hadding, hrest, hitem, hrequests.1, hrequests.2, hheld⟩

theorem exists_calls (hreach : RowLocks.system.ReachableWith
      (fun _ e => RowLocks.Starts (keyRequests '' batches) e) l) :
    ∃ s, system.ReachableWith (fun _ e => Begins batches e) s ∧ s.Locks l ∧ s.AtKeys := by
  induction hreach with
  | @init l hinit =>
    obtain rfl : l = ⟨∅, 0⟩ := hinit
    exact ⟨⟨∅, ∅, 0⟩, .init rfl, ⟨rfl, fun _ => .none⟩, by rintro _ _ ⟨⟩⟩
  | @step l l' e _ hstarts hexec ih =>
    obtain ⟨s, hr, hlocks, hatKeys⟩ := ih
    cases e with
    | start program =>
      obtain rfl := Option.some.inj hexec
      obtain ⟨items, hitems, rfl⟩ := hstarts program rfl
      have hbegins : Begins batches (.begin 0 items) := by
        intro now items' heq
        cases heq
        exact hitems
      refine exists_atKeys items (.step hr hbegins rfl)
        (hlocks.begin ⟨[], keyRequests items⟩ ⟨by simp [Tx.holds], rfl⟩)
        Table.get?_insert_self rfl rfl fun k' tx hne hget => hatKeys k' tx ?_
      rwa [State.begin, Table.get?_insert_ne hne] at hget
    | take k =>
      simp only [RowLocks.system, RowLocks.State.exec, RowLocks.State.take] at hexec
      split at hexec
      · rename_i held request rest hget
        simp only [Option.ite_none_right_eq_some, Option.some.injEq] at hexec
        obtain ⟨hfree, rfl⟩ := hexec
        obtain ⟨batch, item, items, key, ttl, hs, hadding, hrest, hitem, rfl, rfl, hheld⟩ :=
          next_item hlocks hatKeys hget
        rw [hlocks.free] at hfree
        let row := claimed batch.now ttl (s.found batch (item.spec.identifier, key))
        let batch' := batch.claim (item.spec.identifier, key) row
        have hstep : system.step s (.claim k) = some (s.setTx k (.batch batch')) := by
          obtain ⟨spec, idempotency⟩ := item
          obtain rfl : idempotency = some (key, ttl) := hitem
          simp [system, State.exec, hs, hadding, hrest, hfree, batch', row]
        have hothers : ∀ k' tx, k' ≠ k → (s.setTx k (.batch batch')).txs.get? k' = some tx →
            tx.AtKey := by
          intro k' tx hne hget'
          rw [State.setTx, Table.get?_insert_ne hne] at hget'
          exact hatKeys k' tx hget'
        have hbegins : Begins batches (.claim k) := by rintro _ _ ⟨⟩
        have hr' : system.ReachableWith (fun _ e => Begins batches e)
            (s.setTx k (.batch batch')) := .step hr hbegins hstep
        have hlocks' : (s.setTx k (.batch batch')).Locks ⟨l.txs.insert k
            ⟨(item.spec.identifier, key) :: held, keyRequests items⟩, l.next⟩ := by
          apply hlocks.setTx ⟨_, _⟩
          constructor
          · intro key'
            rw [Tx.holds_claim, List.mem_cons, hheld]
          · rw [requests_claim hrest hadding]
        -- A claim without a job id goes on with `add_job`.
        cases hid : row.jobId with
        | some id =>
          refine exists_atKeys items hr' hlocks' Table.get?_insert_self ?_ ?_ hothers
          · simp [batch', Batch.claim, hid, hrest]
          · simp [batch', Batch.claim, hid, hadding]
        | none =>
          have hadding' : batch'.adding = true := by simp [batch', Batch.claim, hid]
          have hrest' : batch'.rest = item :: items := by simp [batch', Batch.claim, hid, hrest]
          have hstep' : system.step (s.setTx k (.batch batch')) (.addJob k (some 0)) = some
              ((s.setTx k (.batch batch')).setTx k (.batch (batch'.addJob item.key (some 0)))) := by
            simp [system, State.exec, State.setTx, hadding', hrest']
          have hget' : (s.setTx k (.batch batch')).txs.get? k = some (.batch batch') :=
            Table.get?_insert_self
          obtain ⟨locks, hl, hheld', hrequests'⟩ := hlocks'.get hget'
          have hbegins' : Begins batches (.addJob k (some 0)) := by rintro _ _ ⟨⟩
          refine exists_atKeys items (.step hr' hbegins' hstep')
            (hlocks'.keep hl ⟨fun key' => ?_, ?_⟩) Table.get?_insert_self ?_ rfl ?_
          · rw [Tx.holds_addJob, hheld']
          · rw [requests_addJob hrest' (.inl hadding'), hrequests']
          · simp [Batch.addJob, hrest']
          · intro k' tx hne hget'
            rw [State.setTx, Table.get?_insert_ne hne] at hget'
            exact hothers k' tx hne hget'
      · cases hexec
    | pass k =>
      simp only [RowLocks.system, RowLocks.State.exec, RowLocks.State.pass] at hexec
      split at hexec
      · rename_i held request rest hget
        obtain ⟨_, _, _, _, _, -, -, -, -, rfl, -, -⟩ := next_item hlocks hatKeys hget
        simp at hexec
      · cases hexec
    | finish k =>
      simp only [RowLocks.system, RowLocks.State.exec] at hexec
      split at hexec
      · rename_i locks hget
        obtain rfl := Option.some.inj hexec
        obtain ⟨tx, hs, -⟩ := hlocks.get' hget
        have hstep : system.step s (.rollback k) = some { s with txs := s.txs.erase k } := by
          simp [system, State.exec, hs]
        have hbegins : Begins batches (.rollback k) := by rintro _ _ ⟨⟩
        refine ⟨_, .step hr hbegins hstep, hlocks.erase, fun k' tx' hget' => hatKeys k' tx' ?_⟩
        simp only [Table.get?_erase] at hget'
        split at hget'
        · cases hget'
        · exact hget'
      · cases hexec

/--
Calls of `bgw_add_jobs` never wait for each other's key rows in a cycle if and only if no
orders of keys in their batches are knotted.
-/
theorem keyed_batches_acyclic_iff (batches : Set (List Item)) :
    (∀ s, system.ReachableWith (fun _ e => Begins batches e) s → Acyclic s.WaitsFor) ↔
      ¬RowLocks.Knotted (keyRequests '' batches) := by
  constructor
  · intro h
    rw [← RowLocks.acyclic_iff_not_knotted]
    intro l hl
    obtain ⟨s, hr, hlocks, hatKeys⟩ := exists_calls hl
    apply (h s hr).mono
    rintro k k' ⟨hne, ⟨held, _⟩, locks', row, rest, hget, hget', rfl, hrow⟩
    obtain ⟨batch, item, items, key, ttl, hs, hadding, hrest, hitem, hrequest, -, -⟩ :=
      next_item hlocks hatKeys hget
    obtain ⟨tx', hs', hheld', -⟩ := hlocks.get' hget'
    cases hrequest
    exact ⟨hne, batch, tx', item, items, _, hs, hs', hadding, hrest, by simp [Item.key, hitem],
      (hheld' _).mp hrow⟩
  · intro hnot s hr
    obtain ⟨l, hl, hlocks⟩ := exists_locks hr
    have hacyclic : Acyclic l.WaitsFor :=
      RowLocks.acyclic_iff_not_knotted.mpr (fun h => hnot (knotted_of_programs h)) l hl
    exact hacyclic.mono fun k k' => hlocks.waitsFor

/-- Producers that all list their keys in one order never deadlock. -/
theorem acyclic_of_sorted {lt : Key → Key → Prop} (hirrefl : ∀ key, ¬lt key key)
    (htrans : ∀ {a b c}, lt a b → lt b c → lt a c)
    (hsorted : ∀ items ∈ batches, (items.filterMap Item.key).Pairwise fun a b => a ≠ b → lt a b)
    (hreach : system.ReachableWith (fun _ e => Begins batches e) s) : Acyclic s.WaitsFor := by
  obtain ⟨l, hl, hlocks⟩ := exists_locks hreach
  have hnot : ¬RowLocks.Knotted (keyRequests '' batches) := by
    apply RowLocks.not_knotted_of_ordered hirrefl htrans
    rintro requests key rest ⟨items, hitems, hprogram⟩ earlier hmem hne
    have hpairs := hsorted items hitems
    have hkeys : items.filterMap Item.key = (requests ++ ⟨key, false⟩ :: rest).map (·.row) := by
      rw [← hprogram, keyRequests, List.map_filterMap]
      simp [Function.comp_def]
    rw [hkeys, List.map_append, List.pairwise_append] at hpairs
    exact hpairs.2.2 _ (List.mem_map_of_mem hmem) key (by simp) hne
  have hacyclic : Acyclic l.WaitsFor :=
    RowLocks.acyclic_iff_not_knotted.mpr (fun h => hnot (knotted_of_programs h)) l hl
  exact hacyclic.mono fun k k' => hlocks.waitsFor

/-! ## Two producers of the same keys -/

namespace DeadlockTrace

def item (key : String) : Item where
  spec := ⟨"sync", .null, none, none, none, none, none, none, .replace⟩
  idempotency := some (key, 1000)

/-- Each call has claimed its first key and comes to the first key of the other. -/
def crossed : List Event :=
  [.begin 0 [item "a", item "b"], .begin 0 [item "b", item "a"], .claim 0, .addJob 0 (some 1), .claim 1,
    .addJob 1 (some 2)]

/-- The next key of call `k` is `key`, which transaction `k'` holds. -/
def waits (s : State) (k k' : ℕ) (key : Key) : Bool :=
  (match s.txs.get? k with
    | some (.batch ⟨_, _, item :: _, false, _⟩) => item.key = some key
    | _ => false) && (s.txs.get? k').any (Tx.holds key)

end DeadlockTrace

private theorem waitsFor_of_crossed {key : Key} (hne : k ≠ k')
    (h : DeadlockTrace.waits s k k' key = true) : s.WaitsFor k k' := by
  simp only [DeadlockTrace.waits, Bool.and_eq_true, Option.any_eq_true] at h
  obtain ⟨hnext, tx', hget', hholds⟩ := h
  split at hnext
  · rename_i now written item rest returned hget
    exact ⟨hne, _, tx', item, rest, key, hget, hget', rfl, rfl, by simpa using hnext, hholds⟩
  · cases hnext

/-- Two batches with the same two keys in opposite orders wait for each other. -/
theorem keyed_batches_deadlock :
    ¬∀ (batches : Set (List Item)) (s : State),
      system.ReachableWith (fun _ e => Begins batches e) s → Acyclic s.WaitsFor := by
  intro hclaim
  have hinit : system.Init ⟨∅, ∅, 0⟩ := rfl
  obtain ⟨s, hreach, hs⟩ := system.exists_reachable_of_run DeadlockTrace.crossed
    (fun s => DeadlockTrace.waits s 0 1 ("sync", "b") && DeadlockTrace.waits s 1 0 ("sync", "a"))
    hinit (by decide)
  obtain ⟨hfirst, hsecond⟩ := Bool.and_eq_true_iff.mp hs
  apply hclaim Set.univ s (hreach.mono fun _ _ _ _ _ _ => trivial) 0
  exact .tail (.single (waitsFor_of_crossed (by decide) hfirst))
    (waitsFor_of_crossed (by decide) hsecond)

end BetterGraphileWorker.IdempotencyKeys
