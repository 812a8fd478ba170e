-- SUMMARY: The steps of one worker that settle a promise the pool waits for.
import BetterGraphileWorker.Worker.PoolInvariant

/-!
# What a pool learns from a worker

A startup, a shutdown or a completion of one worker settles. Only that worker changes, with what
the start() calls and the watchers know of it.
-/

namespace BetterGraphileWorker

namespace WorkerPool

section
variable {n : ℕ} {s s' : State n} {i : Fin n} {c : Start n} {call : ℕ} {runner : RunnerId}

/-! ## What a start() awaits -/

@[simp] theorem settle_members {before after : Member} {j : Fin n} :
    (c.settle i before after).members j =
      if j = i ∧ c.members i = before then after else c.members j := by
  unfold Start.settle Start.setMember
  split
  · cases Classical.em (j = i) with
    | inl heq => simp [*]
    | inr hne => simp [hne]
  · simp [*]

@[simp] theorem settle_phase {before after : Member} : (c.settle i before after).phase = c.phase := by
  unfold Start.settle Start.setMember
  split <;> rfl

@[simp] theorem stopped_members : (c.stopped i).members = c.members := by
  unfold Start.stopped
  split <;> rfl

theorem mem_settleWatchers {before : Awaits} {after : Option Awaits} {w : Watcher n} :
    w ∈ (s.settleWatchers i before after).watchers ↔
      (w ∈ s.watchers ∧ w ≠ ⟨i, before⟩) ∨
        (⟨i, before⟩ ∈ s.watchers ∧ ∃ awaits, after = some awaits ∧ w = ⟨i, awaits⟩) := by
  simp only [State.settleWatchers, List.mem_filterMap]
  constructor
  · rintro ⟨w', hmem, heq⟩
    split at heq
    · rename_i hw
      subst hw
      obtain ⟨awaits, hafter, rfl⟩ := Option.map_eq_some_iff.mp heq
      exact .inr ⟨hmem, awaits, hafter, rfl⟩
    · rename_i hw
      obtain rfl := Option.some.inj heq
      exact .inl ⟨hmem, hw⟩
  · rintro (⟨hmem, hne⟩ | ⟨hmem, awaits, rfl, rfl⟩)
    · exact ⟨w, hmem, by simp [hne]⟩
    · exact ⟨_, hmem, by simp⟩

theorem settle_of_ne {before after : Member} (hne : c.members i ≠ before) :
    c.settle i before after = c := if_neg hne

/-- A start() that awaits a worker has not settled. -/
theorem phase_of_unsettled (h : Inv s) (hcall : s.starts.get? call = some c)
    (hmember : (c.members i).settled = false) : c.phase = .starting := by
  have hok := h.phase call c hcall
  unfold State.PhaseOk at hok
  cases hphase : c.phase with
  | starting => rfl
  | resolved =>
    rw [hphase] at hok
    obtain ⟨runner, hstarted⟩ := hok i
    simp [hstarted, Member.settled] at hmember
  | cleaning pending =>
    rw [hphase] at hok
    simp [(hok i).1] at hmember
  | rejected =>
    rw [hphase] at hok
    simp [(hok i).1] at hmember

/-- No end of a runner is unanswered while the worker starts. -/
private theorem not_ended_of_starting (h : Inv s) (hstarting : (s.workers i).starting ≠ none) :
    ¬s.Ended i runner := by
  rintro (hdue | ⟨-, ⟨run, hrun, -⟩ | ⟨-, hnone, -⟩⟩)
  · exact hstarting (h.due i runner hdue).1
  · rw [(h.worker i).ok.starting hstarting] at hrun
    cases hrun
  · exact hstarting hnone

private theorem holds_congr {member : Member} {j : Fin n} (hworker : s'.workers j = s.workers j) :
    s'.Holds j member ↔ s.Holds j member := by
  cases member with
  | started runner => cases runner <;> simp [State.Holds, hworker]
  | starting => simp [State.Holds, hworker]
  | queued | ready | failed => rfl

private theorem memberOk_congr {member : Member} {j : Fin n} (hworker : s'.workers j = s.workers j) :
    s'.MemberOk j member ↔ s.MemberOk j member := by
  cases member with
  | started runner => cases runner <;> simp [State.MemberOk, hworker]
  | starting | queued => simp [State.MemberOk, hworker]
  | ready | failed => rfl

/-- What a start() knows after a step of worker `i`. -/
structure Learns (i : Fin n) (c c' : Start n) : Prop where
  others : ∀ j, j ≠ i → c'.members j = c.members j
  settled : (c.members i).settled = true → c'.members i = c.members i
  phase : c'.phase = c.phase ∨
    ∃ pending, c.phase = .cleaning pending ∧ c'.phase = .cleaning (Function.update pending i false)

/-- Only worker `i` and what awaits its promises change. -/
structure Local (s s' : State n) (i : Fin n) : Prop where
  workers : ∀ j, j ≠ i → s'.workers j = s.workers j
  completions : ∀ j, j ≠ i → s'.completions j = s.completions j
  next : s'.next = s.next
  watchers : ∀ w, w.worker ≠ i → (w ∈ s'.watchers ↔ w ∈ s.watchers)
  kept : ∀ call c, s.starts.get? call = some c → ∃ c', s'.starts.get? call = some c' ∧ Learns i c c'
  calls : ∀ call c', s'.starts.get? call = some c' → ∃ c, s.starts.get? call = some c ∧ Learns i c c'

theorem Learns.starting {c' : Start n} (h : Learns i c c') (hphase : c.phase = .starting) :
    c'.phase = .starting := by
  rcases h.phase with heq | ⟨pending, heq, -⟩
  · exact heq.trans hphase
  · simp [hphase] at heq

theorem Learns.failed {c' : Start n} (h : Learns i c c') {j : Fin n} (hfailed : c.members j = .failed) :
    c'.members j = .failed := by
  cases Classical.em (j = i) with
  | inr hne => exact (h.others j hne).trans hfailed
  | inl heq =>
    subst heq
    exact (h.settled (by simp [hfailed, Member.settled])).trans hfailed

theorem Learns.started {c' : Start n} (h : Learns i c c') {j : Fin n} {runner : Option RunnerId}
    (hstarted : c.members j = .started runner) : c'.members j = .started runner := by
  cases Classical.em (j = i) with
  | inr hne => exact (h.others j hne).trans hstarted
  | inl heq =>
    subst heq
    exact (h.settled (by simp [hstarted, Member.settled])).trans hstarted

private theorem Local.ended (h : Local s s' i) {j : Fin n} (hne : j ≠ i) (hend : s.Ended j runner) :
    s'.Ended j runner := by
  rcases hend with hdue | ⟨hstopping, hrun | ⟨hrun, hstarting, hrejected, call, c, hold, hphase⟩⟩
  · exact .inl ((h.watchers ⟨j, .due (some runner)⟩ hne).mpr hdue)
  · exact .inr ⟨by rw [h.workers j hne, hstopping], .inl (by rwa [h.workers j hne])⟩
  · obtain ⟨c', hnew, hlearns⟩ := h.kept call c hold
    exact .inr ⟨by rw [h.workers j hne, hstopping], .inr ⟨by rw [h.workers j hne, hrun],
      by rw [h.workers j hne, hstarting], by rw [h.completions j hne, hrejected], call, c', hnew,
      hlearns.starting hphase⟩⟩

private theorem Local.phase (hlocal : Local s s' i) (h : Inv s)
    (hbusy : ∀ id, id < (s.workers i).nextRunner → (s'.workers i).busy id = true →
      (s.workers i).busy id = true)
    (hshutdown : ∀ call c c', s.starts.get? call = some c → s'.starts.get? call = some c' →
      Learns i c c' → ∀ pending, c'.phase = .cleaning pending →
        (pending i = true → (s'.workers i).stopping ≠ none) ∧
        (pending i = false → ∀ runner, c.members i = .started (some runner) →
          (s'.workers i).busy runner = false))
    {c' : Start n} (hcall : s.starts.get? call = some c) (hcall' : s'.starts.get? call = some c')
    (hlearns : Learns i c c') : s'.PhaseOk c' := by
  have hok := h.phase call c hcall
  -- A settled start() has learnt nothing new, and its runners stay dead.
  have hsame : (∀ j, (c.members j).settled = true) → c'.members = c.members := by
    intro hsettled
    funext j
    cases Classical.em (j = i) with
    | inr hne => exact hlearns.others j hne
    | inl heq => exact heq ▸ hlearns.settled (heq ▸ hsettled j)
  have hdead : ∀ j runner, c.members j = .started (some runner) →
      (s.workers j).busy runner = false → (s'.workers j).busy runner = false := by
    intro j runner hmember hidle
    cases Classical.em (j = i) with
    | inr hne => rwa [hlocal.workers j hne]
    | inl heq =>
      subst heq
      have hmemberOk := h.member call c hcall j
      rw [hmember] at hmemberOk
      cases hb : (s'.workers j).busy runner with
      | false => rfl
      | true => exact absurd (hbusy runner hmemberOk.1 hb) (by simp [hidle])
  unfold State.PhaseOk at hok ⊢
  cases hphase : c.phase with
  | starting =>
    rw [hlearns.starting hphase]
    trivial
  | resolved =>
    rw [hphase] at hok
    have hphase' : c'.phase = .resolved := by
      rcases hlearns.phase with heq | ⟨pending, heq, -⟩
      · exact heq.trans hphase
      · simp [hphase] at heq
    rw [hphase']
    intro j
    obtain ⟨runner, hmember⟩ := hok j
    exact ⟨runner, hlearns.started hmember⟩
  | rejected =>
    rw [hphase] at hok
    have hphase' : c'.phase = .rejected := by
      rcases hlearns.phase with heq | ⟨pending, heq, -⟩
      · exact heq.trans hphase
      · simp [hphase] at heq
    rw [hphase', hsame fun j => (hok j).1]
    intro j
    exact ⟨(hok j).1, fun runner hmember => hdead j runner hmember ((hok j).2 runner hmember)⟩
  | cleaning pending =>
    rw [hphase] at hok
    have hphase' : ∃ pending', c'.phase = .cleaning pending' ∧ ∀ j, j ≠ i → pending' j = pending j := by
      rcases hlearns.phase with heq | ⟨p, heq, hnew⟩
      · exact ⟨pending, heq.trans hphase, fun _ _ => rfl⟩
      · obtain rfl : pending = p := by simpa [hphase] using heq
        exact ⟨_, hnew, fun j hne => by simp [hne]⟩
    obtain ⟨pending', hphase', hothers⟩ := hphase'
    have hi := hshutdown call c c' hcall hcall' hlearns pending' hphase'
    rw [hphase', hsame fun j => (hok j).1]
    intro j
    cases Classical.em (j = i) with
    | inl heq =>
      subst heq
      exact ⟨(hok j).1, hi⟩
    | inr hne =>
      rw [hlocal.workers j hne, hothers j hne]
      exact hok j

/-- What has to be shown about worker `i` after a step that changes only what belongs to it. -/
structure LocalOk (s s' : State n) (i : Fin n) : Prop where
  worker : WorkerOk (s'.workers i)
  busy : ∀ id, id < (s.workers i).nextRunner → (s'.workers i).busy id = true →
    (s.workers i).busy id = true
  starting : (s'.workers i).starting ≠ none →
    ∃ call c, s'.starts.get? call = some c ∧ c.members i = .starting
  run : ∀ run, (s'.workers i).run = some run →
    ∃ call c, s'.starts.get? call = some c ∧ c.members i = .started run.runner
  watched : ∀ run, (s'.workers i).run = some run → (s'.workers i).stopping = none →
    ⟨i, .completion⟩ ∈ s'.watchers ∨ ∃ call c, s'.starts.get? call = some c ∧ c.phase = .starting
  pending : ∀ run runner, (s'.workers i).run = some run → run.supervise = .watching runner →
    s'.completions i = .pending
  rejected : ∀ runner, s'.completions i = .rejected runner → (s'.workers i).starting = none →
    (∀ id, (s'.workers i).busy id = false) ∧
      ((s'.workers i).stopping = none → (s'.workers i).run = none)
  due : ∀ runner, ⟨i, .due (some runner)⟩ ∈ s'.watchers →
    (s'.workers i).starting = none ∧ s'.completions i = .rejected runner
  member : ∀ call c c', s.starts.get? call = some c → s'.starts.get? call = some c' → Learns i c c' →
    s'.MemberOk i (c'.members i)
  shutdown : ∀ call c c', s.starts.get? call = some c → s'.starts.get? call = some c' →
    Learns i c c' → ∀ pending, c'.phase = .cleaning pending →
      (pending i = true → (s'.workers i).stopping ≠ none) ∧
      (pending i = false → ∀ runner, c.members i = .started (some runner) →
        (s'.workers i).busy runner = false)
  holds : ∀ call c c', s.starts.get? call = some c → s'.starts.get? call = some c' → Learns i c c' →
    s'.Holds i (c'.members i) → s.Holds i (c.members i)
  lost : ∀ call c c', s.starts.get? call = some c → s'.starts.get? call = some c' → Learns i c c' →
    ¬s'.Holds i (c'.members i) →
      (∀ j, ¬s.Holds j (c.members j)) ∨ (c.phase = .starting ∧ ∃ j, c'.members j = .failed) ∨
        ∃ runner, c'.members i = .started (some runner) ∧ (s'.workers i).stopping = none ∧
          s'.Ended i runner

theorem Inv.local (h : Inv s) (hlocal : Local s s' i) (hi : LocalOk s s' i) : Inv s' where
  worker j := by
    cases Classical.em (j = i) with
    | inl heq => exact heq ▸ hi.worker
    | inr hne => exact hlocal.workers j hne ▸ h.worker j
  below call c' hcall' := by
    obtain ⟨c, hcall, -⟩ := hlocal.calls call c' hcall'
    exact hlocal.next ▸ h.below call c hcall
  starting j hnone := by
    cases Classical.em (j = i) with
    | inl heq =>
      subst heq
      exact hi.starting hnone
    | inr hne =>
      rw [hlocal.workers j hne] at hnone
      obtain ⟨call, c, hcall, hmember⟩ := h.starting j hnone
      obtain ⟨c', hcall', hlearns⟩ := hlocal.kept call c hcall
      exact ⟨call, c', hcall', (hlearns.others j hne).trans hmember⟩
  member call c' hcall' j := by
    obtain ⟨c, hcall, hlearns⟩ := hlocal.calls call c' hcall'
    cases Classical.em (j = i) with
    | inl heq =>
      subst heq
      exact hi.member call c c' hcall hcall' hlearns
    | inr hne =>
      rw [hlearns.others j hne, memberOk_congr (hlocal.workers j hne)]
      exact h.member call c hcall j
  phase call c' hcall' := by
    obtain ⟨c, hcall, hlearns⟩ := hlocal.calls call c' hcall'
    exact hlocal.phase h hi.busy hi.shutdown hcall hcall' hlearns
  run j run hrun := by
    cases Classical.em (j = i) with
    | inl heq =>
      subst heq
      exact hi.run run hrun
    | inr hne =>
      rw [hlocal.workers j hne] at hrun
      obtain ⟨call, c, hcall, hmember⟩ := h.run j run hrun
      obtain ⟨c', hcall', hlearns⟩ := hlocal.kept call c hcall
      exact ⟨call, c', hcall', hlearns.started hmember⟩
  watched j run hrun hstopping := by
    cases Classical.em (j = i) with
    | inl heq =>
      subst heq
      exact hi.watched run hrun hstopping
    | inr hne =>
      rw [hlocal.workers j hne] at hrun hstopping
      rcases h.watched j run hrun hstopping with hwatch | ⟨call, c, hcall, hphase⟩
      · exact .inl ((hlocal.watchers ⟨j, .completion⟩ hne).mpr hwatch)
      · obtain ⟨c', hcall', hlearns⟩ := hlocal.kept call c hcall
        exact .inr ⟨call, c', hcall', hlearns.starting hphase⟩
  pending j run runner hrun hwatching := by
    cases Classical.em (j = i) with
    | inl heq =>
      subst heq
      exact hi.pending run runner hrun hwatching
    | inr hne =>
      rw [hlocal.workers j hne] at hrun
      rw [hlocal.completions j hne]
      exact h.pending j run runner hrun hwatching
  rejected j runner hrejected hnone := by
    cases Classical.em (j = i) with
    | inl heq =>
      subst heq
      exact hi.rejected runner hrejected hnone
    | inr hne =>
      rw [hlocal.completions j hne] at hrejected
      rw [hlocal.workers j hne] at hnone ⊢
      exact h.rejected j runner hrejected hnone
  due j runner hdue := by
    cases Classical.em (j = i) with
    | inl heq =>
      subst heq
      exact hi.due runner hdue
    | inr hne =>
      rw [hlocal.workers j hne, hlocal.completions j hne]
      exact h.due j runner ((hlocal.watchers ⟨j, .due (some runner)⟩ hne).mp hdue)
  call call c' hcall' j hlost := by
    obtain ⟨c, hcall, hlearns⟩ := hlocal.calls call c' hcall'
    have hnone : (∀ k, ¬s.Holds k (c.members k)) → ∀ k, ¬s'.Holds k (c'.members k) := by
      intro hall k hk
      cases Classical.em (k = i) with
      | inl heq =>
        subst heq
        exact hall k (hi.holds call c c' hcall hcall' hlearns hk)
      | inr hne =>
        rw [hlearns.others k hne, holds_congr (hlocal.workers k hne)] at hk
        exact hall k hk
    cases Classical.em (j = i) with
    | inl heq =>
      subst heq
      rcases hi.lost call c c' hcall hcall' hlearns hlost with hall | ⟨hphase, hfailed⟩ | hend
      · exact .inl (hnone hall)
      · exact .inr (.inl ⟨hlearns.starting hphase, hfailed⟩)
      · exact .inr (.inr hend)
    | inr hne =>
      rw [hlearns.others j hne, holds_congr (hlocal.workers j hne)] at hlost
      rcases h.call call c hcall j hlost with hall | ⟨hphase, k, hfailed⟩ |
        ⟨runner, hmember, hstopping, hend⟩
      · exact .inl (hnone hall)
      · exact .inr (.inl ⟨hlearns.starting hphase, k, hlearns.failed hfailed⟩)
      · refine .inr (.inr ⟨runner, (hlearns.others j hne).trans hmember, ?_, hlocal.ended hne hend⟩)
        rw [hlocal.workers j hne, hstopping]

theorem learns_settle {before after : Member} (hbefore : before.settled = false) :
    Learns i c (c.settle i before after) where
  others j hne := by rw [settle_members, if_neg (fun h => hne h.1)]
  settled hsettled := by
    rw [settle_members, if_neg]
    rintro ⟨-, heq⟩
    simp [heq, hbefore] at hsettled
  phase := .inl settle_phase

theorem Learns.stopped {c' : Start n} (h : Learns i c c') (hphase : c'.phase = c.phase) :
    Learns i c (c'.stopped i) where
  others j hne := by rw [stopped_members, h.others j hne]
  settled hsettled := by rw [stopped_members, h.settled hsettled]
  phase := by
    unfold Start.stopped
    split
    · rename_i pending heq
      exact .inr ⟨pending, hphase.symm.trans heq, rfl⟩
    · exact .inl hphase

theorem local_mk {l : Lifecycle} {completions : Fin n → Completion} {starts : Table ℕ (Start n)}
    {watchers : List (Watcher n)} {f : Start n → Start n}
    (hcompletions : ∀ j, j ≠ i → completions j = s.completions j)
    (hstarts : ∀ call, starts.get? call = (s.starts.get? call).map f) (hf : ∀ c, Learns i c (f c))
    (hwatchers : ∀ w, w.worker ≠ i → (w ∈ watchers ↔ w ∈ s.watchers)) :
    Local s ⟨Function.update s.workers i l, completions, starts, s.next, watchers⟩ i where
  workers j hne := Function.update_of_ne hne _ _
  completions := hcompletions
  next := rfl
  watchers := hwatchers
  kept call c hcall := ⟨f c, by rw [hstarts, hcall]; rfl, hf c⟩
  calls call c' hcall' := by
    rw [hstarts] at hcall'
    obtain ⟨c, hcall, rfl⟩ := Option.map_eq_some_iff.mp hcall'
    exact ⟨c, hcall, hf c⟩

private theorem settleWatchers_ne {before : Awaits} {after : Option Awaits} {w : Watcher n}
    (hne : w.worker ≠ i) : w ∈ (s.settleWatchers i before after).watchers ↔ w ∈ s.watchers := by
  rw [mem_settleWatchers]
  constructor
  · rintro (⟨hmem, -⟩ | ⟨-, awaits, -, rfl⟩)
    · exact hmem
    · exact absurd rfl hne
  · intro hmem
    refine .inl ⟨hmem, ?_⟩
    rintro rfl
    exact hne rfl

/-- The startup of a worker has succeeded. -/
theorem Inv.launched (h : Inv s) {l : Lifecycle} (hok : WorkerOk l)
    (hstarting : (s.workers i).starting = some (.launching runner))
    (hl : l = { s.workers i with run := some ⟨false, some runner, .watching runner⟩, starting := none })
    (halive : (s.workers i).busy runner = true ∨
      (s.workers i).runners.get? runner = some (.ended true)) :
    Inv ((((s.setWorker i l).setCompletion i .pending).settleMembers i .starting
      (.started (some runner))).settleWatchers i .starting (some .completion)) := by
  have hget : ∀ call, (s.starts.modify fun _ c => c.settle i .starting (.started (some runner))).get? call =
      (s.starts.get? call).map fun c => c.settle i .starting (.started (some runner)) := by simp
  have hlocal : Local s ((((s.setWorker i l).setCompletion i .pending).settleMembers i .starting
      (.started (some runner))).settleWatchers i .starting (some .completion)) i := by
    refine local_mk (fun j hne => ?_) hget (fun c => learns_settle rfl) fun w hne => ?_
    · simp [State.settleMembers, State.setCompletion, State.setWorker, hne]
    · exact settleWatchers_ne hne
  refine h.local hlocal ?_
  generalize hs' : (((s.setWorker i l).setCompletion i .pending).settleMembers i .starting
    (.started (some runner))).settleWatchers i .starting (some .completion) = s' at hlocal
  have hself : s'.workers i = l := by
    simp [← hs', State.settleWatchers, State.settleMembers, State.setCompletion]
  have hpending : s'.completions i = .pending := by
    simp [← hs', State.settleWatchers, State.settleMembers, State.setCompletion]
  have hwatchers : ∀ awaits, ⟨i, .due awaits⟩ ∈ s'.watchers → ⟨i, .due awaits⟩ ∈ s.watchers := by
    intro awaits hmem
    rw [← hs', mem_settleWatchers] at hmem
    rcases hmem with ⟨hmem, -⟩ | ⟨-, awaits', hawaits, heq⟩
    · exact hmem
    · obtain rfl := Option.some.inj hawaits
      simp at heq
  have hsettle : ∀ call c c', s.starts.get? call = some c → s'.starts.get? call = some c' →
      c' = c.settle i .starting (.started (some runner)) := by
    intro call c c' hcall hcall'
    have heq := hget call
    rw [hcall] at heq
    rw [← hs'] at hcall'
    exact Option.some.inj (hcall'.symm.trans heq)
  clear hs'
  have hne : (s.workers i).starting ≠ none := by simp [hstarting]
  have hbusy : ∀ id, l.busy id = (s.workers i).busy id := by
    intro id
    simp [hl, Lifecycle.busy]
  have hstopping : l.stopping = (s.workers i).stopping := by rw [hl]
  -- Whoever awaited the startup now has a run, and was in flight.
  obtain ⟨call₀, c₀, hcall₀, hmember₀⟩ := h.starting i hne
  obtain ⟨c₀', hcall₀', -⟩ := hlocal.kept call₀ c₀ hcall₀
  have hphase₀ := phase_of_unsettled h hcall₀ (i := i) (by simp [hmember₀, Member.settled])
  obtain rfl := hsettle call₀ c₀ c₀' hcall₀ hcall₀'
  refine ⟨hself ▸ hok, fun id _ hid => ?_, fun hnone => ?_, fun run hrun => ?_, fun _ _ _ => ?_,
    fun _ _ _ _ => hpending, fun id hrejected => ?_, fun id hdue => ?_, fun call c c' hcall hcall' _ => ?_,
    fun call c c' hcall hcall' _ pending hphase => ?_, fun call c c' hcall hcall' _ hholds => ?_,
    fun call c c' hcall hcall' _ hlost => ?_⟩
  · rwa [hself, hbusy] at hid
  · simp [hself, hl] at hnone
  · rw [hself, hl] at hrun
    obtain rfl := Option.some.inj hrun
    exact ⟨call₀, _, hcall₀', by simp [hmember₀]⟩
  · exact .inr ⟨call₀, _, hcall₀', by rw [settle_phase, hphase₀]⟩
  · rw [hpending] at hrejected
    cases hrejected
  · exact absurd (h.due i id (hwatchers _ hdue)).1 hne
  · obtain rfl := hsettle call c c' hcall hcall'
    have hmember := h.member call c hcall i
    rw [settle_members]
    split
    · refine ⟨?_, by simp [hself, hl]⟩
      rw [hself, hl]
      exact ((h.worker i).launching runner hstarting).1
    · cases hcase : c.members i with
      | started id =>
        rw [hcase] at hmember
        cases id with
        | none => exact hmember
        | some id => exact ⟨by rw [hself, hl]; exact hmember.1, by simp [hself, hl]⟩
      | starting => simp_all
      | queued =>
        rw [hcase] at hmember
        intro hnone
        rw [hself, hstopping] at hnone
        exact hmember hnone
      | ready | failed => trivial
  · obtain rfl := hsettle call c c' hcall hcall'
    rw [settle_phase] at hphase
    have hphaseOk := h.phase call c hcall
    unfold State.PhaseOk at hphaseOk
    rw [hphase] at hphaseOk
    rw [hself, hstopping]
    simp only [hbusy]
    exact (hphaseOk i).2
  · obtain rfl := hsettle call c c' hcall hcall'
    rw [settle_members] at hholds
    split at hholds
    · rename_i hmember
      rw [hmember.2]
      change (s.workers i).stopping = none
      rw [← hstopping, ← hself]
      exact hholds.2
    · cases hcase : c.members i with
      | started id =>
        rw [hcase] at hholds
        cases id with
        | none => exact hholds
        | some id => simpa [State.Holds, hself, hbusy, hstopping] using hholds
      | starting => simp_all
      | queued | ready => trivial
      | failed =>
        rw [hcase] at hholds
        exact hholds
  · obtain rfl := hsettle call c c' hcall hcall'
    have hold : ¬s.Holds i (c.members i) → (∀ j, ¬s.Holds j (c.members j)) ∨
        (c.phase = .starting ∧
          ∃ j, (c.settle i .starting (.started (some runner))).members j = .failed) := by
      intro hnot
      rcases h.call call c hcall i hnot with hall | ⟨hphase, k, hk⟩ | ⟨id, -, -, hend⟩
      · exact .inl hall
      · exact .inr ⟨hphase, k, (learns_settle rfl).failed hk⟩
      · exact absurd hend (not_ended_of_starting h hne)
    cases Classical.em (s.Holds i (c.members i)) with
    | inr hnot => exact (hold hnot).imp_right .inl
    | inl hheld =>
      -- The worker is lost if its runner has ended before its startup resumes.
      cases hcase : c.members i with
      | starting =>
        rw [hcase] at hheld
        have hstop : (s'.workers i).stopping = none := by
          rw [hself, hstopping]
          exact hheld
        rw [settle_members, if_pos ⟨rfl, hcase⟩] at hlost
        rcases halive with hbusy' | hended
        · refine absurd ⟨?_, hstop⟩ hlost
          rw [hself, hbusy, hbusy']
        · refine .inr (.inr ⟨runner, by simp [hcase], hstop, .inr ⟨hstop, .inl
            ⟨⟨false, some runner, .watching runner⟩, ?_, rfl, ?_⟩⟩⟩)
          · rw [hself, hl]
          · rw [hself, hl]
            exact hended
      | started id =>
        rw [settle_of_ne (by simp [hcase]), hcase] at hlost
        rw [hcase] at hheld
        cases id with
        | none => exact hheld.elim
        | some id => exact absurd (by simpa [State.Holds, hself, hbusy, hstopping] using hheld) hlost
      | queued | ready => simp [hcase, State.Holds] at hlost
      | failed => simp [hcase, State.Holds] at hheld

/-- The startup of a worker has failed. -/
theorem Inv.unstarted (h : Inv s) {l : Lifecycle} (hok : WorkerOk l) (hne : (s.workers i).starting ≠ none)
    (hrun : (s.workers i).run = none) (hl : l = { s.workers i with starting := none })
    (hidle : ∀ id, (s.workers i).busy id = false) :
    Inv (((s.setWorker i l).settleMembers i .starting .failed).settleWatchers i .starting
      (some (.due none))) := by
  have hget : ∀ call, (s.starts.modify fun _ c => c.settle i .starting .failed).get? call =
      (s.starts.get? call).map fun c => c.settle i .starting .failed := by simp
  have hlocal : Local s (((s.setWorker i l).settleMembers i .starting .failed).settleWatchers i
      .starting (some (.due none))) i :=
    local_mk (fun _ _ => rfl) hget (fun c => learns_settle rfl) fun w hw => settleWatchers_ne hw
  refine h.local hlocal ?_
  generalize hs' : ((s.setWorker i l).settleMembers i .starting .failed).settleWatchers i .starting
    (some (.due none)) = s' at hlocal
  have hself : s'.workers i = l := by simp [← hs', State.settleWatchers, State.settleMembers]
  have hdue : ∀ id, ⟨i, .due (some id)⟩ ∈ s'.watchers → ⟨i, .due (some id)⟩ ∈ s.watchers := by
    intro id hmem
    rw [← hs', mem_settleWatchers] at hmem
    rcases hmem with ⟨hmem, -⟩ | ⟨-, awaits, hawaits, heq⟩
    · exact hmem
    · obtain rfl := Option.some.inj hawaits
      simp at heq
  have hsettle : ∀ call c c', s.starts.get? call = some c → s'.starts.get? call = some c' →
      c' = c.settle i .starting .failed := by
    intro call c c' hcall hcall'
    have heq := hget call
    rw [hcall] at heq
    rw [← hs'] at hcall'
    exact Option.some.inj (hcall'.symm.trans heq)
  clear hs'
  have hbusy : ∀ id, l.busy id = false := by
    intro id
    have hid := hidle id
    simpa [hl, Lifecycle.busy] using hid
  have hnone : l.starting = none := by rw [hl]
  have hgone : l.run = none := by rw [hl, hrun]
  have hstopping : l.stopping = (s.workers i).stopping := by rw [hl]
  refine ⟨hself ▸ hok, fun id _ hid => ?_, fun hstarting => ?_, fun run hrun' => ?_, fun run hrun' _ => ?_,
    fun run id hrun' _ => ?_, fun id _ _ => ?_, fun id hid => ?_, fun call c c' hcall hcall' _ => ?_,
    fun call c c' hcall hcall' _ pending hphase => ?_, fun call c c' hcall hcall' _ hholds => ?_,
    fun call c c' hcall hcall' _ hlost => ?_⟩
  · simp [hself, hbusy] at hid
  · exact absurd (hself ▸ hnone) hstarting
  · simp [hself, hgone] at hrun'
  · simp [hself, hgone] at hrun'
  · simp [hself, hgone] at hrun'
  · rw [hself]
    exact ⟨hbusy, fun _ => hgone⟩
  · exact absurd (h.due i id (hdue id hid)).1 hne
  · obtain rfl := hsettle call c c' hcall hcall'
    have hmember := h.member call c hcall i
    rw [settle_members]
    split
    · trivial
    · cases hcase : c.members i with
      | started id =>
        rw [hcase] at hmember
        cases id with
        | none => exact hmember
        | some id => exact ⟨by rw [hself, hl]; exact hmember.1, by simp [hself, hnone]⟩
      | starting => simp_all
      | queued =>
        rw [hcase] at hmember
        intro hstop
        rw [hself, hstopping] at hstop
        exact hmember hstop
      | ready | failed => trivial
  · obtain rfl := hsettle call c c' hcall hcall'
    rw [settle_phase] at hphase
    have hphaseOk := h.phase call c hcall
    unfold State.PhaseOk at hphaseOk
    rw [hphase] at hphaseOk
    rw [hself, hstopping]
    exact ⟨(hphaseOk i).2.1, fun _ _ _ => hbusy _⟩
  · obtain rfl := hsettle call c c' hcall hcall'
    rw [settle_members] at hholds
    split at hholds
    · exact hholds.elim
    · cases hcase : c.members i with
      | started id =>
        rw [hcase] at hholds
        cases id with
        | none => exact hholds
        | some id => simp [State.Holds, hself, hbusy] at hholds
      | starting => simp_all
      | queued | ready => trivial
      | failed =>
        rw [hcase] at hholds
        exact hholds
  · obtain rfl := hsettle call c c' hcall hcall'
    cases Classical.em (c.members i = .starting) with
    | inl hmember =>
      refine .inr (.inl ⟨phase_of_unsettled h hcall (i := i) (by simp [hmember, Member.settled]), i, ?_⟩)
      simp [hmember]
    | inr hmember =>
      have hnot : ¬s.Holds i (c.members i) := by
        rw [settle_of_ne hmember] at hlost
        cases hcase : c.members i with
        | started id => cases id <;> simp [State.Holds, hidle]
        | starting => exact absurd hcase hmember
        | queued | ready => simp [hcase, State.Holds] at hlost
        | failed => simp [State.Holds]
      rcases h.call call c hcall i hnot with hall | ⟨hphase, k, hk⟩ | ⟨id, -, -, hend⟩
      · exact .inl hall
      · exact .inr (.inl ⟨hphase, k, (learns_settle rfl).failed hk⟩)
      · exact absurd hend (not_ended_of_starting h hne)

/-- The shutdown of a worker is over. -/
theorem Inv.released (h : Inv s) {l : Lifecycle} {ok : Bool} (hok : WorkerOk l)
    (hstop : (s.workers i).stopping ≠ none) (hnone : (s.workers i).starting = none)
    (hrun : (s.workers i).run = none) (hnone' : l.starting = none) (hgone : l.run = none)
    (hrunners : l.runners = (s.workers i).runners) (hnext : l.nextRunner = (s.workers i).nextRunner) :
    Inv ((s.setWorker i l).settleShutdown i ok) := by
  generalize hafter : (if ok then Member.ready else Member.failed) = after
  have hget : ∀ call, (s.starts.modify fun _ c => (c.settle i .queued after).stopped i).get? call =
      (s.starts.get? call).map fun c => (c.settle i .queued after).stopped i := by simp
  have hlearns : ∀ c : Start n, Learns i c ((c.settle i .queued after).stopped i) :=
    fun c => (learns_settle rfl).stopped settle_phase
  have heq : (s.setWorker i l).settleShutdown i ok =
      ⟨Function.update s.workers i l, s.completions,
        s.starts.modify fun _ c => (c.settle i .queued after).stopped i, s.next, s.watchers⟩ := by
    rw [← hafter]
    rfl
  have hlocal : Local s ((s.setWorker i l).settleShutdown i ok) i := by
    rw [heq]
    exact local_mk (fun _ _ => rfl) hget hlearns fun _ _ => Iff.rfl
  refine h.local hlocal ?_
  generalize hs' : (s.setWorker i l).settleShutdown i ok = s' at hlocal
  have hself : s'.workers i = l := by simp [← hs', State.settleShutdown]
  have hwatchers : s'.watchers = s.watchers := by rw [← hs', heq]
  have hcompletions : s'.completions = s.completions := by rw [← hs', heq]
  have hsettle : ∀ call c c', s.starts.get? call = some c → s'.starts.get? call = some c' →
      c' = (c.settle i .queued after).stopped i := by
    intro call c c' hcall hcall'
    have hc := hget call
    rw [hcall] at hc
    rw [← hs', heq] at hcall'
    exact Option.some.inj (hcall'.symm.trans hc)
  clear hs' heq
  have hidle : ∀ id, (s.workers i).busy id = false := fun id => (h.worker i).idle hnone hrun
  have hbusy : ∀ id, l.busy id = false := by
    intro id
    have hid := hidle id
    simpa [hrunners, Lifecycle.busy] using hid
  have hnotStarting : ∀ call c, s.starts.get? call = some c → c.members i ≠ .starting := by
    intro call c hcall hmember
    have hok := h.member call c hcall i
    rw [hmember] at hok
    exact hok hnone
  refine ⟨hself ▸ hok, fun id _ hid => ?_, fun hstarting => ?_, fun run hrun' => ?_, fun run hrun' _ => ?_,
    fun run id hrun' _ => ?_, fun id _ _ => ?_, fun id hid => ?_, fun call c c' hcall hcall' _ => ?_,
    fun call c c' hcall hcall' _ pending hphase => ?_, fun call c c' hcall hcall' _ hholds => ?_,
    fun call c c' hcall hcall' hl hlost => ?_⟩
  · simp [hself, hbusy] at hid
  · exact absurd (hself ▸ hnone') hstarting
  · simp [hself, hgone] at hrun'
  · simp [hself, hgone] at hrun'
  · simp [hself, hgone] at hrun'
  · rw [hself]
    exact ⟨hbusy, fun _ => hgone⟩
  · rw [hwatchers] at hid
    rw [hself, hcompletions]
    exact ⟨hnone', (h.due i id hid).2⟩
  · obtain rfl := hsettle call c c' hcall hcall'
    have hmember := h.member call c hcall i
    rw [stopped_members, settle_members]
    split
    · rw [← hafter]
      cases ok <;> trivial
    · cases hcase : c.members i with
      | started id =>
        rw [hcase] at hmember
        cases id with
        | none => exact hmember
        | some id => exact ⟨by rw [hself, hnext]; exact hmember.1, by simp [hself, hnone']⟩
      | starting => exact absurd hcase (hnotStarting call c hcall)
      | queued => simp_all
      | ready | failed => trivial
  · obtain rfl := hsettle call c c' hcall hcall'
    refine ⟨fun htrue => ?_, fun _ _ _ => by rw [hself, hbusy]⟩
    unfold Start.stopped at hphase
    rw [settle_phase] at hphase
    cases hcase : c.phase with
    | cleaning pending' =>
      simp only [hcase, Phase.cleaning.injEq] at hphase
      simp [← hphase] at htrue
    | starting | resolved | rejected => simp [hcase] at hphase
  · obtain rfl := hsettle call c c' hcall hcall'
    rw [stopped_members, settle_members] at hholds
    split at hholds
    · rename_i hmember
      rw [hmember.2]
      trivial
    · cases hcase : c.members i with
      | started id =>
        rw [hcase] at hholds
        cases id with
        | none => exact hholds
        | some id => simp [State.Holds, hself, hbusy] at hholds
      | starting => exact absurd hcase (hnotStarting call c hcall)
      | queued | ready => trivial
      | failed =>
        rw [hcase] at hholds
        exact hholds
  · obtain rfl := hsettle call c c' hcall hcall'
    cases Classical.em (c.members i = .queued) with
    | inl hmember =>
      -- A shutdown that rejects fails the calls that were queued behind it.
      have hi : ((c.settle i .queued after).stopped i).members i = after := by simp [hmember]
      cases ok with
      | true =>
        rw [hi, ← hafter] at hlost
        exact absurd trivial hlost
      | false =>
        refine .inr (.inl ⟨phase_of_unsettled h hcall (i := i) (by simp [hmember, Member.settled]), i, ?_⟩)
        rw [hi, ← hafter]
        rfl
    | inr hmember =>
      have hnot : ¬s.Holds i (c.members i) := by
        rw [stopped_members, settle_of_ne hmember] at hlost
        cases hcase : c.members i with
        | started id => cases id <;> simp [State.Holds, hidle]
        | starting => exact absurd hcase (hnotStarting call c hcall)
        | queued => exact absurd hcase hmember
        | ready => simp [hcase, State.Holds] at hlost
        | failed => simp [State.Holds]
      rcases h.call call c hcall i hnot with hall | ⟨hphase, k, hk⟩ | ⟨_, -, hstopping, -⟩
      · exact .inl hall
      · exact .inr (.inl ⟨hphase, k, hl.failed hk⟩)
      · exact absurd hstopping hstop

/-- The completion of a worker settles with its runner. -/
theorem Inv.completed (h : Inv s) {l : Lifecycle} {run : Run} {completion : Completion}
    {after : Option Awaits} (hok : WorkerOk l) (hrun : (s.workers i).run = some run)
    (hrunner : run.runner = some runner) (hwatching : run.supervise = .watching runner)
    (hnone : (s.workers i).starting = none) (hnone' : l.starting = none)
    (hstopping : l.stopping = (s.workers i).stopping) (hrunners : l.runners = (s.workers i).runners)
    (hnext : l.nextRunner = (s.workers i).nextRunner) (hidle : ∀ id, (s.workers i).busy id = false)
    (hafter : completion = .rejected runner ∧ after = some (.due (some runner)) ∨
      completion = .resolved ∧ after = none)
    (hcases : completion = .rejected runner ∧ l.run = none ∨
      (s.workers i).stopping ≠ none ∧ l.run = some { run with supervise := .settled }) :
    Inv (((s.setWorker i l).setCompletion i completion).settleWatchers i .completion after) := by
  have hlocal : Local s
      (((s.setWorker i l).setCompletion i completion).settleWatchers i .completion after) i := by
    refine local_mk (f := id) (fun j hne => ?_) (fun call => by simp [State.setCompletion, State.setWorker])
      (fun c => ⟨fun _ _ => rfl, fun _ => rfl, .inl rfl⟩) fun w hw => settleWatchers_ne hw
    simp [State.setCompletion, State.setWorker, hne]
  refine h.local hlocal ?_
  generalize hs' : ((s.setWorker i l).setCompletion i completion).settleWatchers i .completion after = s'
    at hlocal
  have hself : s'.workers i = l := by simp [← hs', State.settleWatchers, State.setCompletion]
  have hcompletion : s'.completions i = completion := by
    simp [← hs', State.settleWatchers, State.setCompletion]
  have hstarts : s'.starts = s.starts := by
    simp [← hs', State.settleWatchers, State.setCompletion, State.setWorker]
  have hwatchers : ∀ w, w ∈ s'.watchers ↔ (w ∈ s.watchers ∧ w ≠ ⟨i, .completion⟩) ∨
      (⟨i, .completion⟩ ∈ s.watchers ∧ ∃ awaits, after = some awaits ∧ w = ⟨i, awaits⟩) := by
    intro w
    rw [← hs']
    exact mem_settleWatchers
  clear hs'
  have hbusy : ∀ id, l.busy id = false := by
    intro id
    have hid := hidle id
    simpa [hrunners, Lifecycle.busy] using hid
  -- The completion was pending, so no watcher of it was due.
  have hnotDue : ∀ id, ⟨i, .due (some id)⟩ ∉ s.watchers := by
    intro id hid
    have hrejected := (h.due i id hid).2
    rw [h.pending i run runner hrun hwatching] at hrejected
    cases hrejected
  have hsame : ∀ call c c', s.starts.get? call = some c → s'.starts.get? call = some c' → c' = c := by
    intro call c c' hcall hcall'
    rw [hstarts] at hcall'
    exact Option.some.inj (hcall'.symm.trans hcall)
  refine ⟨hself ▸ hok, fun id _ hid => ?_, fun hstarting => ?_, fun run' hrun' => ?_,
    fun run' hrun' hstop => ?_, fun run' id hrun' hwatching' => ?_, fun id _ _ => ?_, fun id hid => ?_,
    fun call c c' hcall hcall' _ => ?_, fun call c c' hcall hcall' _ pending hphase => ?_,
    fun call c c' hcall hcall' _ hholds => ?_, fun call c c' hcall hcall' _ hlost => ?_⟩
  · simp [hself, hbusy] at hid
  · exact absurd (hself ▸ hnone') hstarting
  · rw [hself] at hrun'
    rcases hcases with ⟨-, hgone⟩ | ⟨-, hsettled⟩
    · simp [hgone] at hrun'
    · obtain rfl := Option.some.inj (hsettled.symm.trans hrun')
      obtain ⟨call, c, hcall, hmember⟩ := h.run i run hrun
      exact ⟨call, c, hstarts ▸ hcall, hmember⟩
  · rw [hself] at hrun' hstop
    rcases hcases with ⟨-, hgone⟩ | ⟨hne, -⟩
    · simp [hgone] at hrun'
    · exact absurd (hstopping ▸ hstop) hne
  · rw [hself] at hrun'
    rcases hcases with ⟨-, hgone⟩ | ⟨-, hsettled⟩
    · simp [hgone] at hrun'
    · obtain rfl := Option.some.inj (hsettled.symm.trans hrun')
      cases hwatching'
  · rw [hself]
    refine ⟨hbusy, fun hstop => ?_⟩
    rcases hcases with ⟨-, hgone⟩ | ⟨hne, -⟩
    · exact hgone
    · exact absurd (hstopping ▸ hstop) hne
  · rcases (hwatchers _).mp hid with ⟨hold, -⟩ | ⟨-, awaits, hawaits, heq⟩
    · exact absurd hold (hnotDue id)
    · rcases hafter with ⟨hrejected, hdue⟩ | ⟨-, hdue⟩
      · obtain rfl := Option.some.inj (hdue.symm.trans hawaits)
        cases heq
        exact ⟨hself ▸ hnone', hcompletion.trans hrejected⟩
      · rw [hdue] at hawaits
        cases hawaits
  · obtain rfl := hsame call c c' hcall hcall'
    have hmember := h.member call c' hcall i
    cases hcase : c'.members i with
    | started id =>
      rw [hcase] at hmember
      cases id with
      | none => exact hmember
      | some id => exact ⟨by rw [hself, hnext]; exact hmember.1, by simp [hself, hnone']⟩
    | starting =>
      rw [hcase] at hmember
      exact absurd hnone hmember
    | queued =>
      rw [hcase] at hmember
      intro hstop
      rw [hself, hstopping] at hstop
      exact hmember hstop
    | ready | failed => trivial
  · obtain rfl := hsame call c c' hcall hcall'
    have hphaseOk := h.phase call c' hcall
    unfold State.PhaseOk at hphaseOk
    rw [hphase] at hphaseOk
    rw [hself, hstopping]
    exact ⟨(hphaseOk i).2.1, fun _ _ _ => hbusy _⟩
  · obtain rfl := hsame call c c' hcall hcall'
    cases hcase : c'.members i with
    | started id =>
      rw [hcase] at hholds
      cases id with
      | none => exact hholds
      | some id => simp [State.Holds, hself, hbusy] at hholds
    | starting =>
      rw [hcase] at hholds
      simpa [State.Holds, hself, hstopping] using hholds
    | queued | ready => trivial
    | failed =>
      rw [hcase] at hholds
      exact hholds
  · obtain rfl := hsame call c c' hcall hcall'
    have hnot : ¬s.Holds i (c'.members i) := by
      cases hcase : c'.members i with
      | started id => cases id <;> simp [State.Holds, hidle]
      | starting =>
        rw [hcase] at hlost
        simpa [State.Holds, hself, hstopping] using hlost
      | queued | ready => simp [hcase, State.Holds] at hlost
      | failed => simp [State.Holds]
    rcases h.call call c' hcall i hnot with hall | hfailed | ⟨id, hmember, hstop, hend⟩
    · exact .inl hall
    · exact .inr (.inl hfailed)
    · -- Supervise has seen the end, and the watchers or a start() in flight are to see it.
      rcases hend with hdue | ⟨-, ⟨run', hrun', hrunner', -⟩ | ⟨hgone, -⟩⟩
      · exact absurd hdue (hnotDue id)
      · obtain rfl := Option.some.inj (hrun.symm.trans hrun')
        obtain rfl := Option.some.inj (hrunner.symm.trans hrunner')
        rcases hcases with ⟨hrejected, hgone⟩ | ⟨hne, -⟩
        · have hstop' : (s'.workers i).stopping = none := by rw [hself, hstopping, hstop]
          refine .inr (.inr ⟨runner, hmember, hstop', ?_⟩)
          rcases h.watched i run hrun hstop with hwatch | hflight
          · refine .inl ((hwatchers _).mpr (.inr ⟨hwatch, _, ?_, rfl⟩))
            rcases hafter with ⟨-, hdue⟩ | ⟨hresolved, -⟩
            · exact hdue
            · simp [hrejected] at hresolved
          · exact .inr ⟨hstop', .inr ⟨by rw [hself, hgone], by rw [hself, hnone'],
              hcompletion.trans hrejected, hstarts ▸ hflight⟩⟩
        · exact absurd hstop hne
      · rw [hrun] at hgone
        cases hgone

end

end WorkerPool

end BetterGraphileWorker
