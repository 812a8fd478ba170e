-- SUMMARY: Cron identifiers across the runners of a pool: the registries for which no two cron items share one.
import Mathlib.Data.List.Pairwise
import BetterGraphileWorker.Worker.Registry

/-!
# Cron Items

Graphile records when an identifier last ran, once for the database. Every runner of a
pool checks that its own cron items have different identifiers; here they are compared
across the runners.
-/

namespace BetterGraphileWorker.Registry

/-! ## Numbered identifiers -/

private theorem colon_notMem_toString (index : ℕ) : ':' ∉ (toString index).toList := by
  intro hmem
  rw [Nat.toString_eq_repr, Nat.toList_repr] at hmem
  have hdigit := Nat.isDigit_of_mem_toDigits (by decide) (by decide) hmem
  exact absurd hdigit (by decide)

/-- A list is split at the first place of a separator in one way. -/
private theorem append_cons_inj {α : Type} {a : α} : ∀ {xs xs' ys ys' : List α}, a ∉ xs → a ∉ xs' →
    xs ++ a :: ys = xs' ++ a :: ys' → xs = xs' ∧ ys = ys'
  | [], [], _, _, _, _, h => ⟨rfl, List.tail_eq_of_cons_eq h⟩
  | [], x :: _, _, _, _, hxs', h => absurd (List.head_eq_of_cons_eq h) (List.ne_of_not_mem_cons hxs')
  | x :: _, [], _, _, hxs, _, h => absurd (List.head_eq_of_cons_eq h).symm (List.ne_of_not_mem_cons hxs)
  | x :: xs, x' :: xs', ys, ys', hxs, hxs', h => by
    obtain ⟨rfl, htail⟩ := List.cons.inj h
    obtain ⟨rfl, rfl⟩ := append_cons_inj (List.not_mem_of_not_mem_cons hxs)
      (List.not_mem_of_not_mem_cons hxs') htail
    exact ⟨rfl, rfl⟩

/-- An identifier's number stands after its last colon. -/
theorem numbered_inj {identifier identifier' : String} {index index' : ℕ} :
    identifier ++ ":" ++ toString index = identifier' ++ ":" ++ toString index' ↔
      identifier = identifier' ∧ index = index' := by
  constructor
  · intro h
    have hlist := congrArg (fun s => s.toList.reverse) h
    simp only [String.toList_append, List.append_assoc, List.reverse_append] at hlist
    have hcolon : ":".toList.reverse = [':'] := by decide
    have hdigits : ∀ index : ℕ, ':' ∉ (toString index).toList.reverse := by
      intro index hmem
      exact colon_notMem_toString index (List.mem_reverse.mp hmem)
    rw [hcolon, List.singleton_append, List.singleton_append] at hlist
    obtain ⟨hindex, hidentifier⟩ := append_cons_inj (hdigits index) (hdigits index') hlist
    refine ⟨String.toList_inj.mp (List.reverse_injective hidentifier), ?_⟩
    rw [List.reverse_inj, Nat.toString_eq_repr, Nat.toString_eq_repr, Nat.toList_repr,
      Nat.toList_repr] at hindex
    rw [← @Nat.ofDigitChars_ten_toDigits index, hindex, Nat.ofDigitChars_ten_toDigits]
  · rintro ⟨rfl, rfl⟩
    rfl

/-! ## Schedules of different runners -/

namespace QueueContract

variable {queue queue' : QueueContract}

/-- How many schedules a queue has. -/
def schedules (queue : QueueContract) : ℕ := (cronMatches queue.cron).length

/-- One identifier for both, or one that looks like a numbered identifier of the other. -/
def Clashes (queue queue' : QueueContract) : Prop :=
  (queue.cronIdentifier = queue'.cronIdentifier ∧
    (queue.schedules = 1 ∧ queue'.schedules = 1 ∨ 1 < queue.schedules ∧ 1 < queue'.schedules)) ∨
  (queue.schedules = 1 ∧ 1 < queue'.schedules ∧
    ∃ index < queue'.schedules, queue.cronIdentifier = queue'.cronIdentifier ++ ":" ++ toString index)

/-- The identifiers of a queue's cron items. -/
theorem mem_identifiers {defaultMaxAttempts : ℤ} {identifier : String} :
    identifier ∈ (queue.cronItems defaultMaxAttempts).map CronItem.identifier ↔
      ∃ index < queue.schedules, queue.itemIdentifier index = identifier := by
  constructor
  · intro hmem
    obtain ⟨item, hitem, rfl⟩ := List.mem_map.mp hmem
    obtain ⟨index, hindex, rfl⟩ := List.mem_mapIdx.mp hitem
    exact ⟨index, hindex, rfl⟩
  · rintro ⟨index, hindex, rfl⟩
    exact List.mem_map.mpr ⟨_, List.mem_mapIdx.mpr ⟨index, hindex, rfl⟩, rfl⟩

private theorem itemIdentifier_one (h : queue.schedules = 1) (index : ℕ) :
    queue.itemIdentifier index = queue.cronIdentifier :=
  if_neg (by rw [show (cronMatches queue.cron).length = 1 from h]; decide)

private theorem itemIdentifier_several (h : 1 < queue.schedules) (index : ℕ) :
    queue.itemIdentifier index = queue.cronIdentifier ++ ":" ++ toString index :=
  if_pos h

/-- Two queues have a cron identifier in common exactly if one clashes with the other. -/
theorem common_identifier_iff :
    (∃ index < queue.schedules, ∃ index' < queue'.schedules,
      queue.itemIdentifier index = queue'.itemIdentifier index') ↔
      queue.Clashes queue' ∨ queue'.Clashes queue := by
  rcases Nat.lt_trichotomy queue.schedules 1 with hnone | hone | hmany
  · simp only [Clashes]
    grind
  · rcases Nat.lt_trichotomy queue'.schedules 1 with hnone' | hone' | hmany'
    · simp only [Clashes]
      grind
    · simp only [itemIdentifier_one hone, itemIdentifier_one hone', hone, hone', Clashes]
      grind
    · simp only [itemIdentifier_one hone, itemIdentifier_several hmany', hone, Clashes]
      grind
  · rcases Nat.lt_trichotomy queue'.schedules 1 with hnone' | hone' | hmany'
    · simp only [Clashes]
      grind
    · simp only [itemIdentifier_several hmany, itemIdentifier_one hone', hone', Clashes]
      grind
    · simp only [itemIdentifier_several hmany, itemIdentifier_several hmany', numbered_inj, Clashes]
      grind

end QueueContract

/-! ## Items of a pool -/

/-- The cron items of all runners of a pool, if every runner starts. -/
def startedCronItems (workers : List (String × List NormalizedQueue)) (defaultMaxAttempts : ℤ) :
    Except RegistryError (List CronItem) := do
  let items ← workers.mapM fun worker =>
    buildCronItems (worker.2.map NormalizedQueue.contract) defaultMaxAttempts
  pure items.flatten

/-- No two queues with schedules clash, unless one runner checks both. -/
def SeparateSchedules (defaultRunner : Option String) (queues : List QueueContract) : Prop :=
  ∀ queue ∈ queues, ∀ queue' ∈ queues, queue.scheduled = true → queue'.scheduled = true →
    queue.runnerOf defaultRunner ≠ queue'.runnerOf defaultRunner → ¬queue.Clashes queue'

/-- The identifiers of the cron items of one runner. -/
def cronIdentifiers (defaultMaxAttempts : ℤ) (worker : String × List NormalizedQueue) : List String :=
  (((worker.2.map NormalizedQueue.contract).filter QueueContract.scheduled).flatMap
    (·.cronItems defaultMaxAttempts)).map CronItem.identifier

theorem mem_cronIdentifiers {defaultMaxAttempts : ℤ} {worker : String × List NormalizedQueue}
    {identifier : String} : identifier ∈ cronIdentifiers defaultMaxAttempts worker ↔
      ∃ normalized ∈ worker.2, normalized.contract.scheduled = true ∧
        ∃ index < normalized.contract.schedules, normalized.contract.itemIdentifier index = identifier := by
  simp only [cronIdentifiers, List.map_flatMap, List.mem_flatMap, List.mem_filter,
    QueueContract.mem_identifiers]
  constructor
  · rintro ⟨queue, ⟨hqueue, hscheduled⟩, hidentifier⟩
    obtain ⟨normalized, hmem, rfl⟩ := List.mem_map.mp hqueue
    exact ⟨normalized, hmem, hscheduled, hidentifier⟩
  · rintro ⟨normalized, hmem, hscheduled, hidentifier⟩
    exact ⟨_, ⟨List.mem_map.mpr ⟨normalized, hmem, rfl⟩, hscheduled⟩, hidentifier⟩

/-- Each runner has checked its own items. -/
private theorem startedCronItems_ok {workers : List (String × List NormalizedQueue)}
    {defaultMaxAttempts : ℤ} {items : List CronItem}
    (h : startedCronItems workers defaultMaxAttempts = .ok items) :
    items.map CronItem.identifier = workers.flatMap (cronIdentifiers defaultMaxAttempts) ∧
      ∀ worker ∈ workers, (cronIdentifiers defaultMaxAttempts worker).Nodup := by
  obtain ⟨lists, hlists, h⟩ := bind_eq_ok.mp h
  obtain rfl := Except.ok.inj h
  have hbuilt := forall₂_of_mapM hlists
  constructor
  · have hmap : workers.map (cronIdentifiers defaultMaxAttempts) =
        lists.map (List.map CronItem.identifier) := by
      rw [← List.forall₂_eq_eq_eq, List.forall₂_map_left_iff, List.forall₂_map_right_iff]
      apply hbuilt.imp
      intro worker list hlist
      rw [(buildCronItems_ok hlist).1]
      rfl
    rw [List.map_flatten, ← hmap, List.flatMap_def]
  · intro worker hworker
    obtain ⟨list, -, hlist⟩ := exists_right hbuilt hworker
    obtain ⟨rfl, hnodup⟩ := buildCronItems_ok hlist
    exact hnodup

section
variable {runners : List String} {defaultRunner : Option String} {queues : List QueueContract}
  {handlers : QueueContract → Option QueueHandler} {workers : List (String × List NormalizedQueue)}
  {defaultMaxAttempts : ℤ} {items : List CronItem}

/-- Where no queues clash, two runners have no identifier in common. -/
private theorem disjoint_cronIdentifiers (hpool : PoolOk defaultRunner queues workers)
    (hseparate : SeparateSchedules defaultRunner queues) {worker worker' : String × List NormalizedQueue}
    (hworker : worker ∈ workers) (hworker' : worker' ∈ workers) (hne : worker.1 ≠ worker'.1) :
    (cronIdentifiers defaultMaxAttempts worker).Disjoint (cronIdentifiers defaultMaxAttempts worker') := by
  intro identifier hmem hmem'
  rw [mem_cronIdentifiers] at hmem hmem'
  obtain ⟨normalized, hqueue, hscheduled, index, hindex, hidentifier⟩ := hmem
  obtain ⟨normalized', hqueue', hscheduled', index', hindex', hidentifier'⟩ := hmem'
  obtain ⟨hok, hrunner⟩ := hpool.ok worker hworker normalized hqueue
  obtain ⟨hok', hrunner'⟩ := hpool.ok worker' hworker' normalized' hqueue'
  have hrunners : normalized.contract.runnerOf defaultRunner ≠ normalized'.contract.runnerOf defaultRunner := by
    intro hsame
    rw [hrunner, hrunner', Option.some.injEq] at hsame
    exact hne hsame
  have hclash := QueueContract.common_identifier_iff.mp
    ⟨index, hindex, index', hindex', hidentifier.trans hidentifier'.symm⟩
  rcases hclash with hclash | hclash
  · exact hseparate _ hok.registered _ hok'.registered hscheduled hscheduled' hrunners hclash
  · exact hseparate _ hok'.registered _ hok.registered hscheduled' hscheduled hrunners.symm hclash

/--
In a pool whose runners all start, the identifiers of the cron items are distinct exactly
if no queues of different runners clash.
-/
theorem cron_identifiers_iff
    (hpool : createBetterWorkerPool runners defaultRunner queues handlers = .ok workers)
    (hstart : startedCronItems workers defaultMaxAttempts = .ok items) :
    (items.map CronItem.identifier).Nodup ↔ SeparateSchedules defaultRunner queues := by
  obtain ⟨-, hok⟩ := createBetterWorkerPool_ok hpool
  obtain ⟨hitems, hnodup⟩ := startedCronItems_ok hstart
  rw [hitems, List.nodup_flatMap, and_iff_right hnodup]
  constructor
  · intro hdisjoint queue hqueue queue' hqueue' hscheduled hscheduled' hrunners hclash
    obtain ⟨worker, hworker, normalized, hmem, rfl⟩ := hok.every queue hqueue
    obtain ⟨worker', hworker', normalized', hmem', rfl⟩ := hok.every queue' hqueue'
    have hne : worker ≠ worker' := by
      rintro rfl
      apply hrunners
      rw [(hok.ok worker hworker normalized hmem).2, (hok.ok worker hworker normalized' hmem').2]
    obtain ⟨index, hindex, index', hindex', hsame⟩ := QueueContract.common_identifier_iff.mpr (.inl hclash)
    have hsymm : Std.Symm (Function.onFun List.Disjoint (cronIdentifiers defaultMaxAttempts)) :=
      ⟨fun _ _ h => List.disjoint_symm h⟩
    have hapart := hdisjoint.forall hworker hworker' hne
    have hidentifier : normalized.contract.itemIdentifier index ∈ cronIdentifiers defaultMaxAttempts worker :=
      mem_cronIdentifiers.mpr ⟨normalized, hmem, hscheduled, index, hindex, rfl⟩
    have hidentifier' : normalized.contract.itemIdentifier index ∈
        cronIdentifiers defaultMaxAttempts worker' :=
      mem_cronIdentifiers.mpr ⟨normalized', hmem', hscheduled', index', hindex', hsame.symm⟩
    exact hapart hidentifier hidentifier'
  · intro hseparate
    have hne : workers.Pairwise fun worker worker' => worker.1 ≠ worker'.1 :=
      List.pairwise_map.mp hok.runners
    apply hne.imp_of_mem
    intro worker worker' hworker hworker' hne
    exact disjoint_cronIdentifiers hok hseparate hworker hworker' hne

end

/-! ### A shared identifier -/

/-- A queue that runs every minute on its own runner. -/
def minutely (name : String) (identifier : Option String) (runner : String) : QueueContract where
  name
  inputSchema := false
  cron := some (.pattern "* * * * *")
  cronOptions := some ⟨identifier, none, none, none, none, none, none⟩
  maxAttempts := none
  priority := none
  timeout := none
  serial := none
  runner := some runner

def processFns (_ : QueueContract) : Option QueueHandler := some ⟨false⟩

theorem cron_identifiers_shared : ∃ queues workers items,
    createBetterWorkerPool ["mail", "reports"] none queues processFns = .ok workers ∧
      startedCronItems workers 25 = .ok items ∧ ¬(items.map CronItem.identifier).Nodup :=
  ⟨[minutely "send" (some "nightly") "mail", minutely "sum" (some "nightly") "reports"], _, _, rfl, rfl,
    by decide⟩

theorem cron_identifiers_iff_apart : ∃ queues workers items,
    createBetterWorkerPool ["mail", "reports"] none queues processFns = .ok workers ∧
      startedCronItems workers 25 = .ok items ∧
      ((items.map CronItem.identifier).Nodup ↔ SeparateSchedules none queues) ∧
      (items.map CronItem.identifier).Nodup :=
  ⟨[minutely "send" none "mail", minutely "sum" (some "nightly") "reports"], _, _, rfl, rfl,
    @cron_identifiers_iff ["mail", "reports"] none _ processFns _ 25 _ rfl rfl, by decide⟩

end BetterGraphileWorker.Registry
