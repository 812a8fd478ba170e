-- SUMMARY: Programs that run beside each other in one world, and the traces they show under different watchers.
import Mathlib.Data.Nat.Notation
import Mathlib.Data.Set.Basic
import BetterGraphileWorker.Library.Observation

/-!
# Pools

A world calls programs, answers their visible requests in any order, and sees their
results. Hidden requests go to a watcher with a state of its own. What the world sees is
a trace. If the programs of two pools are alike, call by call, the watchers have no
influence on the traces.
-/

universe u v w x y z

/-- Someone who answers hidden requests, and may remember them. -/
structure Watcher {ι : Type u} {ο : ι → Type v} (H : Hidden ι ο) where
  State : Type z
  start : State
  react : State → (i : ι) → H.requests i → ο i × State

/-- Every answer is an allowed one. -/
def Watcher.Within {ι : Type u} {ο : ι → Type v} {H : Hidden ι ο} (A : Watcher H) : Prop :=
  ∀ z i hi, H.answers i (A.react z i hi).1

/-- What may happen outside of the programs; processes are numbered by their start. -/
structure World (ι : Type u) (ο : ι → Type v) (γ : Type w) (α : Type x) where
  State : Type y
  start : State
  /-- The world makes a call. -/
  calls : γ → State → State → Prop
  serves : ℕ → (i : ι) → State → ο i → State → Prop
  /-- A process ends with a result. -/
  settles : ℕ → α → State → State → Prop

/-- What the world sees. -/
inductive Shown (ι : Type u) (ο : ι → Type v) (γ : Type w) (α : Type x) where
  | called (c : γ)
  | served (k : ℕ) (i : ι) (o : ο i)
  | settled (k : ℕ) (a : α)

variable {ι : Type u} {ο : ι → Type v} {γ α : Type w} {H : Hidden ι ο}

structure Pool (W : World ι ο γ α) (A : Watcher H) where
  world : W.State
  watcher : A.State
  /-- The number of processes that were started. -/
  count : ℕ
  processes : ℕ → Option (Program ι ο α)

namespace Pool

variable {f g : γ → Program ι ο α} {W : World ι ο γ α} {A B : Watcher H}

def initial (W : World ι ο γ α) (A : Watcher H) : Pool W A where
  world := W.start
  watcher := A.start
  count := 0
  processes := fun _ => none

/-- Process `k` goes on as `p` in another state of the world and the watcher. -/
def go (s : Pool W A) (k : ℕ) (p : Option (Program ι ο α)) (w : W.State) (z : A.State) : Pool W A where
  world := w
  watcher := z
  count := s.count
  processes := Function.update s.processes k p

/-- A new process starts. -/
def spawn (s : Pool W A) (p : Program ι ο α) (w : W.State) : Pool W A where
  world := w
  watcher := s.watcher
  count := s.count + 1
  processes := Function.update s.processes s.count (some p)

variable (f) in
inductive Step : Pool W A → Option (Shown ι ο γ α) → Pool W A → Prop where
  | call {s : Pool W A} {c : γ} {w : W.State} (hcall : W.calls c s.world w) :
      Step s (some (.called c)) (s.spawn (f c) w)
  | watch {s : Pool W A} {k : ℕ} {i : ι} {next : ο i → Program ι ο α}
      (hp : s.processes k = some (.request i next)) (hi : H.requests i) :
      Step s none
        (s.go k (some (next (A.react s.watcher i hi).1)) s.world (A.react s.watcher i hi).2)
  | serve {s : Pool W A} {k : ℕ} {i : ι} {next : ο i → Program ι ο α} {o : ο i} {w : W.State}
      (hp : s.processes k = some (.request i next)) (hi : ¬H.requests i)
      (hserve : W.serves k i s.world o w) :
      Step s (some (.served k i o)) (s.go k (some (next o)) w s.watcher)
  | settle {s : Pool W A} {k : ℕ} {a : α} {w : W.State} (hp : s.processes k = some (.done a))
      (hsettle : W.settles k a s.world w) :
      Step s (some (.settled k a)) (s.go k none w s.watcher)

variable (f) in
/-- The pool can show the trace. -/
inductive Shows : Pool W A → List (Shown ι ο γ α) → Prop where
  | nil {s : Pool W A} : Shows s []
  | silent {s s' : Pool W A} {t : List (Shown ι ο γ α)} (h : Step f s none s')
      (ht : Shows s' t) : Shows s t
  | shown {s s' : Pool W A} {l : Shown ι ο γ α} {t : List (Shown ι ο γ α)}
      (h : Step f s (some l) s') (ht : Shows s' t) : Shows s (l :: t)

variable (f) in
/-- Everything the world may see of the programs under a watcher. -/
def traces (W : World ι ο γ α) (A : Watcher H) : Set (List (Shown ι ο γ α)) :=
  { t | Shows f (initial W A) t }

section
variable {s : Pool W A} {k : ℕ} {p p' : Option (Program ι ο α)} {w w' : W.State} {z z' : A.State}

@[simp] theorem go_processes : (s.go k p w z).processes k = p := by simp [go]

@[simp] theorem go_go : (s.go k p w z).go k p' w' z' = s.go k p' w' z' := by simp [go]

theorem go_self : s.go k (s.processes k) s.world s.watcher = s := by simp [go]

end

/-! ## Alike pools -/

/-- The processes of two pools are alike, one by one. -/
structure Matches (H : Hidden ι ο) (s : Pool W A) (s' : Pool W B) : Prop where
  world : s'.world = s.world
  count : s'.count = s.count
  processes : ∀ k, Option.Rel (Program.Alike H Eq) (s.processes k) (s'.processes k)

variable {s : Pool W A} {s' : Pool W B}

theorem Matches.update {p p' : Option (Program ι ο α)} (h : Matches H s s')
    (hp : Option.Rel (Program.Alike H Eq) p p') (k k' : ℕ) :
    Option.Rel (Program.Alike H Eq) (Function.update s.processes k p k')
      (Function.update s'.processes k p' k') := by
  by_cases hk : k' = k
  · subst hk
    simpa using hp
  · simpa [Function.update_of_ne hk] using h.processes k'

theorem Matches.go {p p' : Option (Program ι ο α)} {w : W.State} {z : A.State} {z' : B.State}
    (h : Matches H s s') (hp : Option.Rel (Program.Alike H Eq) p p') (k : ℕ) :
    Matches H (s.go k p w z) (s'.go k p' w z') :=
  ⟨rfl, h.count, h.update hp k⟩

theorem Matches.spawn {p p' : Program ι ο α} {w : W.State} (h : Matches H s s')
    (hp : Program.Alike H Eq p p') : Matches H (s.spawn p w) (s'.spawn p' w) := by
  refine ⟨rfl, congrArg (· + 1) h.count, ?_⟩
  have hupdate := h.update (.some hp) s.count
  simpa [Pool.spawn, h.count] using hupdate

theorem Matches.get {k : ℕ} {p : Program ι ο α} (h : Matches H s s')
    (hp : s.processes k = some p) :
    ∃ p', s'.processes k = some p' ∧ Program.Alike H Eq p p' := by
  have hk := h.processes k
  rw [hp] at hk
  generalize hp' : s'.processes k = p' at hk
  cases hk with
  | some hpp => exact ⟨_, rfl, hpp⟩

/-- A process stays matched when its hidden request is answered. -/
theorem alike_of_watched {i : ι} {next : ο i → Program ι ο α} {p : Program ι ο α} {o : ο i}
    (hi : H.requests i) (ho : H.answers i o) (h : Program.Alike H Eq (.request i next) p) :
    Program.Alike H Eq (next o) p := by
  generalize hq : Program.request i next = q at h
  induction h with
  | done => cases hq
  | visible hi' =>
    cases hq
    exact absurd hi hi'
  | left _ hnext =>
    cases hq
    exact hnext o ho
  | right hi' _ ih => exact .right hi' fun o' ho' => ih o' ho' hq

variable (f) in
/-- The pool can get from one state to another. -/
inductive Reaches : Pool W A → Pool W A → Prop where
  | refl {s : Pool W A} : Reaches s s
  | step {s s' s'' : Pool W A} {l : Option (Shown ι ο γ α)} (h : Step f s l s')
      (hreach : Reaches s' s'') : Reaches s s''

variable (f) in
/-- In no run from here does the watcher give an answer that it may not give. -/
def Calm (s : Pool W A) : Prop :=
  ∀ s', Reaches f s s' → ∀ k i next, s'.processes k = some (.request i next) → ∀ hi,
    H.answers i (A.react s'.watcher i hi).1

theorem Calm.step {l : Option (Shown ι ο γ α)} {s s' : Pool W A} (h : Calm f s)
    (hstep : Step f s l s') : Calm f s' :=
  fun s'' hreach => h s'' (.step hstep hreach)

theorem calm_of_within {s : Pool W A} (hA : A.Within) : Calm f s :=
  fun s' _ _ i _ _ hi => hA s'.watcher i hi

/-- `s'` is where a process of `s` gets by some hidden requests. -/
structure Advanced (f : γ → Program ι ο α) (k : ℕ) (s s' : Pool W B)
    (p : Program ι ο α) : Prop where
  shows : ∀ {t}, Shows f s' t → Shows f s t
  calm : Calm f s'
  world : s'.world = s.world
  process : s'.processes k = some p
  go : ∀ p w, ∃ z, s'.go k p w s'.watcher = s.go k p w z

theorem Advanced.refl {p : Program ι ο α} {k : ℕ} (hcalm : Calm g s')
    (hp : s'.processes k = some p) : Advanced g k s' s' p :=
  ⟨id, hcalm, rfl, hp, fun _ _ => ⟨s'.watcher, rfl⟩⟩

theorem Advanced.watch {i : ι} {next : ο i → Program ι ο α} {p : Program ι ο α} {k : ℕ}
    {s'' : Pool W B} (hp : s'.processes k = some (.request i next)) (hi : H.requests i)
    (h : Advanced g k (s'.go k (some (next (B.react s'.watcher i hi).1)) s'.world
      (B.react s'.watcher i hi).2) s'' p) : Advanced g k s' s'' p where
  shows ht := .silent (.watch hp hi) (h.shows ht)
  calm := h.calm
  world := h.world
  process := h.process
  go p w := by
    obtain ⟨z, hz⟩ := h.go p w
    exact ⟨z, hz.trans go_go⟩

/-- A process that ended is matched by one that ends in the same result. -/
theorem exists_advanced_done {a : α} {p : Program ι ο α} {k : ℕ} (hcalm : Calm g s')
    (hp : s'.processes k = some p) (h : Program.Alike H Eq (.done a) p) :
    ∃ s'', Advanced g k s' s'' (.done a) := by
  generalize hq : Program.done a = q at h
  induction h generalizing s' with
  | done hab =>
    cases hq
    exact ⟨s', .refl hcalm (hab ▸ hp)⟩
  | visible => cases hq
  | left => cases hq
  | right hi _ ih =>
    have hanswer := hcalm s' .refl k _ _ hp hi
    obtain ⟨s'', hs''⟩ := ih _ hanswer (hcalm.step (.watch hp hi)) go_processes hq
    exact ⟨s'', .watch hp hi hs''⟩

/-- A process at a visible request is matched by one that gets to the same request. -/
theorem exists_advanced_request {i : ι} {next : ο i → Program ι ο α} {p : Program ι ο α} {k : ℕ}
    (hcalm : Calm g s') (hp : s'.processes k = some p) (hi : ¬H.requests i)
    (h : Program.Alike H Eq (.request i next) p) :
    ∃ next' s'', Advanced g k s' s'' (.request i next') ∧
      ∀ o, Program.Alike H Eq (next o) (next' o) := by
  generalize hq : Program.request i next = q at h
  induction h generalizing s' with
  | done => cases hq
  | visible hi' hnext =>
    cases hq
    exact ⟨_, s', .refl hcalm hp, hnext⟩
  | left hi' =>
    cases hq
    exact absurd hi' hi
  | right hi' _ ih =>
    have hanswer := hcalm s' .refl k _ _ hp hi'
    obtain ⟨next', s'', hs'', hnext⟩ := ih _ hanswer (hcalm.step (.watch hp hi')) go_processes hq
    exact ⟨next', s'', .watch hp hi' hs'', hnext⟩

/-- A pool of alike programs shows every trace of the other. -/
theorem Shows.of_matches {t : List (Shown ι ο γ α)} (hs : Calm f s) (hs' : Calm g s')
    (halike : ∀ c, Program.Alike H Eq (f c) (g c)) (h : Matches H s s') (ht : Shows f s t) :
    Shows g s' t := by
  induction ht generalizing s' with
  | nil => exact .nil
  | @silent s _ _ hstep _ ih =>
    have hcalm := hs.step hstep
    cases hstep with
    | @watch k i next hp hi =>
      obtain ⟨p', hp', hpp'⟩ := h.get hp
      have hnext := alike_of_watched hi (hs s .refl k i next hp hi) hpp'
      have hself : s'.go k (some p') s.world s'.watcher = s' := by
        rw [← hp', ← h.world, go_self]
      apply ih hcalm hs'
      rw [← hself]
      exact h.go (.some hnext) k
  | @shown s _ _ _ hstep _ ih =>
    have hcalm := hs.step hstep
    cases hstep with
    | call hcall =>
      have hstep' := Step.call (f := g) (s := s') (h.world ▸ hcall)
      exact .shown hstep' (ih hcalm (hs'.step hstep') (h.spawn (halike _)))
    | @serve k i next o w hp hi hserve =>
      obtain ⟨p', hp', hpp'⟩ := h.get hp
      obtain ⟨next', s'', hs'', hnext⟩ := exists_advanced_request hs' hp' hi hpp'
      obtain ⟨z, hz⟩ := hs''.go (some (next' o)) w
      have hworld : s''.world = s.world := hs''.world.trans h.world
      have hstep' := Step.serve (f := g) hs''.process hi (hworld ▸ hserve)
      apply hs''.shows
      refine .shown hstep' (ih hcalm (hs''.calm.step hstep') ?_)
      rw [hz]
      exact h.go (.some (hnext o)) k
    | @settle k a w hp hsettle =>
      obtain ⟨p', hp', hpp'⟩ := h.get hp
      obtain ⟨s'', hs''⟩ := exists_advanced_done hs' hp' hpp'
      obtain ⟨z, hz⟩ := hs''.go none w
      have hworld : s''.world = s.world := hs''.world.trans h.world
      have hstep' := Step.settle (f := g) hs''.process (hworld ▸ hsettle)
      apply hs''.shows
      refine .shown hstep' (ih hcalm (hs''.calm.step hstep') ?_)
      rw [hz]
      exact h.go .none k

theorem traces_subset (hA : Calm f (initial W A)) (hB : Calm g (initial W B))
    (halike : ∀ c, Program.Alike H Eq (f c) (g c)) : traces f W A ⊆ traces g W B := by
  intro t ht
  apply Shows.of_matches hA hB halike ?_ ht
  exact ⟨rfl, rfl, fun _ => .none⟩

/-- Watchers that answer as they may in every run do not change what the world sees. -/
theorem traces_eq (hA : Calm f (initial W A)) (hB : Calm g (initial W B))
    (halike : ∀ c, Program.Alike H Eq (f c) (g c)) : traces f W A = traces g W B := by
  apply Set.Subset.antisymm
  · exact traces_subset hA hB halike
  · exact traces_subset hB hA fun c => (halike c).symm

/-! ## Fixed answers -/

/--
A world that makes some calls and answers requests in a fixed way, until one of them stops
it: then it makes no more calls and gives no more answers, but what is done still settles.
-/
def stoppingWorld (calls : γ → Prop) (answer : (i : ι) → Option (ο i)) (stops : ι → Bool) :
    World ι ο γ α where
  State := Bool
  start := true
  calls c up up' := calls c ∧ up = true ∧ up' = true
  serves _ i up o up' := up = true ∧ answer i = some o ∧ up' = !stops i
  settles _ _ up up' := up' = up

def fixedWatcher (react : (i : ι) → H.requests i → ο i) : Watcher H where
  State := Unit
  start := ()
  react _ i hi := (react i hi, ())

section
variable {calls : γ → Prop} {answer : (i : ι) → Option (ο i)} {stops : ι → Bool}
  {react : (i : ι) → H.requests i → ο i}

/-- The pools of such a world under a watcher of this kind. -/
abbrev Stopping (α : Type w) (calls : γ → Prop) (answer : (i : ι) → Option (ο i)) (stops : ι → Bool)
    (react : (i : ι) → H.requests i → ο i) :=
  Pool (stoppingWorld (α := α) calls answer stops) (fixedWatcher react)

namespace Stopping

def up (s : Stopping α calls answer stops react) : Bool := s.world

/-- Process `k` goes on as `p`. -/
def go (s : Stopping α calls answer stops react) (k : ℕ) (p : Option (Program ι ο α)) (up : Bool) :
    Stopping α calls answer stops react :=
  Pool.go s k p up ()

variable {s s' : Stopping α calls answer stops react}

theorem go_again {k : ℕ} {p p' : Option (Program ι ο α)} {up up' : Bool} :
    (s.go k p up).go k p' up' = s.go k p' up' :=
  go_go

/-- A stopped world sees its processes settle, and nothing else. -/
theorem settled_of_stopped {t : List (Shown ι ο γ α)} (hs : s.up = false) (ht : Shows f s t) :
    ∀ l ∈ t, ∃ k a, l = .settled k a := by
  induction ht with
  | nil => simp
  | silent hstep _ ih =>
    cases hstep with
    | watch => exact ih hs
  | shown hstep _ ih =>
    cases hstep with
    | call hcall => cases hs.symm.trans hcall.2.1
    | serve _ _ hserve => cases hs.symm.trans hserve.1
    | @settle k a w hp hsettle =>
      have hsame : w = _ := hsettle
      rintro l (_ | ⟨_, hl⟩)
      · exact ⟨k, a, rfl⟩
      · exact ih (hsame.trans hs) l hl

variable [DecidablePred H.requests]

variable (answer stops react) in
/-- The answers of both, as long as the world is up. -/
def answers (i : ι) (up : Bool) : Option (ο i × Bool) :=
  if hi : H.requests i then some (react i hi, up)
  else if up then (answer i).map (·, !stops i)
  else none

/-- A program that ends without a stop was not stopped before. -/
theorem play_of_stopped {p : Program ι ο α} {a : α} :
    p.play (answers answer stops react) false ≠ some (a, true) := by
  induction p with
  | done b => simp [Program.play]
  | request i next ih =>
    by_cases hi : H.requests i
    · simpa [Program.play, answers, hi] using ih _
    · simp [Program.play, answers, hi]

/-- While the world is up, every process ends as the program of some call does alone. -/
def Follows (f : γ → Program ι ο α) (s : Stopping α calls answer stops react) : Prop :=
  s.up = true → ∀ k p, s.processes k = some p → ∃ c, calls c ∧
    p.play (answers answer stops react) true = (f c).play (answers answer stops react) true

theorem Follows.update {p : Option (Program ι ο α)} {k : ℕ} (h : Follows f s)
    (hup : s'.up = true → s.up = true) (hs' : s'.processes = Function.update s.processes k p)
    (hp : s'.up = true → ∀ q, p = some q → ∃ c, calls c ∧
      q.play (answers answer stops react) true = (f c).play (answers answer stops react) true) :
    Follows f s' := by
  intro hrunning k' q hq
  rw [hs'] at hq
  by_cases hk : k' = k
  · subst hk
    apply hp hrunning
    simpa using hq
  · apply h (hup hrunning) k'
    simpa [Function.update_of_ne hk] using hq

theorem Follows.step {l : Option (Shown ι ο γ α)} (h : Follows f s) (hstep : Step f s l s') :
    Follows f s' := by
  cases hstep with
  | @call c _ hcall =>
    apply h.update (fun _ => hcall.2.1) rfl
    intro _ q hq
    cases hq
    exact ⟨c, hcall.1, rfl⟩
  | watch hp hi =>
    refine h.update id rfl ?_
    intro hup q hq
    cases hq
    obtain ⟨c, hc, hplay⟩ := h hup _ _ hp
    refine ⟨c, hc, ?_⟩
    rw [← hplay]
    simp [Program.play, answers, hi, fixedWatcher]
  | @serve _ i _ o w hp hi hserve =>
    refine h.update (fun _ => hserve.1) rfl ?_
    intro hup q hq
    cases hq
    obtain ⟨c, hc, hplay⟩ := h hserve.1 _ _ hp
    have hgoes : (!stops i) = true := hserve.2.2.symm.trans hup
    refine ⟨c, hc, ?_⟩
    rw [← hplay]
    simp [Program.play, answers, hi, hserve.2.1, hgoes]
  | @settle _ _ w hp hsettle =>
    have hsame : w = s.world := hsettle
    refine h.update hsame.symm.trans rfl ?_
    intro _ q hq
    cases hq

/-- After a result that no program has without a stop, the world sees results only. -/
theorem settled_of_mem {t₁ t₂ : List (Shown ι ο γ α)} {k : ℕ} {a : α} (h : Follows f s)
    (ht : Shows f s (t₁ ++ .settled k a :: t₂))
    (hplay : ∀ c, calls c → (f c).play (answers answer stops react) true ≠ some (a, true)) :
    ∀ l ∈ t₂, ∃ k a, l = .settled k a := by
  generalize htrace : t₁ ++ .settled k a :: t₂ = t at ht
  induction ht generalizing t₁ with
  | nil => simp at htrace
  | silent hstep _ ih => exact ih (h.step hstep) htrace
  | @shown s _ _ _ hstep htail ih =>
    cases t₁ with
    | cons l t₁ =>
      injection htrace with _ htrace
      exact ih (h.step hstep) htrace
    | nil =>
      injection htrace with hsettled htrace
      subst hsettled htrace
      cases hstep with
      | @settle _ _ w hp hsettle =>
        have hsame : w = Stopping.up s := hsettle
        cases hup : Stopping.up s with
        | false =>
          have hstopped : Stopping.up (Pool.go s k none w s.watcher) = false := hsame.trans hup
          exact settled_of_stopped hstopped htail
        | true =>
          obtain ⟨c, hc, hend⟩ := h hup _ _ hp
          exact absurd hend.symm (hplay c hc)

/-- A process runs to what its program plays to, if that does not stop the world. -/
theorem exists_shows_settled {p : Program ι ο α} {k : ℕ} {a : α} (hs : s.up = true)
    (hp : s.processes k = some p)
    (hplay : p.play (answers answer stops react) true = some (a, true)) :
    ∃ t₁, ∀ t₂, Shows f (s.go k none true) t₂ → Shows f s (t₁ ++ .settled k a :: t₂) := by
  induction p generalizing s with
  | done b =>
    cases hplay
    exact ⟨[], fun t₂ ht => .shown (.settle hp hs.symm) ht⟩
  | request i next ih =>
    by_cases hi : H.requests i
    -- The watcher answers, which the world does not see.
    · simp only [Program.play, answers, hi, dif_pos] at hplay
      have hstep : Step f s none (s.go k (some (next (react i hi))) true) := by
        have hwatch := Step.watch (f := f) hp hi
        rwa [show s.world = true from hs] at hwatch
      obtain ⟨t₁, ht₁⟩ := ih _ (s := s.go k (some (next (react i hi))) true) rfl go_processes hplay
      refine ⟨t₁, fun t₂ ht => .silent hstep (ht₁ t₂ ?_)⟩
      rwa [go_again]
    · cases ho : answer i with
      | none => simp [Program.play, answers, hi, ho] at hplay
      | some o =>
        simp only [Program.play, answers, hi, ho, dif_neg, not_false_eq_true, if_true,
          Option.map_some] at hplay
        cases hstop : stops i with
        -- A program that stops the world does not end with it up.
        | true =>
          rw [hstop] at hplay
          exact absurd hplay play_of_stopped
        | false =>
          rw [hstop] at hplay
          have hstep : Step f s (some (.served k i o)) (s.go k (some (next o)) true) :=
            .serve hp hi ⟨hs, ho, by rw [hstop]; rfl⟩
          obtain ⟨t₁, ht₁⟩ := ih _ (s := s.go k (some (next o)) true) rfl go_processes hplay
          refine ⟨.served k i o :: t₁, fun t₂ ht => .shown hstep (ht₁ t₂ ?_)⟩
          rwa [go_again]

end Stopping

end

end Pool
