-- SUMMARY: Programs that issue requests to a world, routines with local variables and exceptions over them, and their weakest preconditions.
import Mathlib.Logic.Basic

/-!
# Programs over requests

A program is a tree: it ends, or issues a request and goes on with the answer. The
world is a relation that says how a request may be answered and what that changes, so
one program has many runs. Routines add local variables and exceptions, with `try`,
`catch` and `finally` as JavaScript has them.
-/

universe u v w x

/-- A program that issues requests `i : ι` and goes on with an answer in `ο i`. -/
inductive Program (ι : Type u) (ο : ι → Type v) (α : Type w) where
  | done (a : α)
  | request (i : ι) (next : ο i → Program ι ο α)

namespace Program

variable {ι : Type u} {ο : ι → Type v} {α β : Type w}

def bind : Program ι ο α → (α → Program ι ο β) → Program ι ο β
  | done a, f => f a
  | request i next, f => request i fun o => (next o).bind f

section
variable {ω : Type x} (serve : (i : ι) → ω → ο i → ω → Prop)

/-- The program can run from one world to another and end with `a`. -/
inductive Runs : Program ι ο α → ω → α → ω → Prop where
  | done {a : α} {w : ω} : Runs (.done a) w a w
  | request {i : ι} {next : ο i → Program ι ο α} {o : ο i} {w w' w'' : ω} {a : α}
      (hserve : serve i w o w') (hnext : Runs (next o) w' a w'') : Runs (.request i next) w a w''

/-- `post` holds wherever a run from here ends. -/
def wp (post : α → ω → Prop) : Program ι ο α → ω → Prop
  | done a, w => post a w
  | request i next, w => ∀ o w', serve i w o w' → (next o).wp post w'

variable {serve} {post post' : α → ω → Prop} {p : Program ι ο α} {w : ω}

theorem wp_of_runs {a : α} {w' : ω} (h : p.wp serve post w) (hruns : p.Runs serve w a w') :
    post a w' := by
  induction hruns with
  | done => exact h
  | request hserve _ ih =>
    apply ih
    exact h _ _ hserve

theorem wp_mono (hpost : ∀ a w, post a w → post' a w) (h : p.wp serve post w) :
    p.wp serve post' w := by
  induction p generalizing w with
  | done a => exact hpost a w h
  | request i next ih =>
    intro o w' hserve
    apply ih
    exact h o w' hserve

theorem wp_bind {post : β → ω → Prop} {f : α → Program ι ο β} :
    (p.bind f).wp serve post w ↔ p.wp serve (fun a w' => (f a).wp serve post w') w := by
  induction p generalizing w with
  | done a => rfl
  | request i next ih =>
    constructor
    · intro h o w' hserve
      exact (ih o).mp (h o w' hserve)
    · intro h o w' hserve
      exact (ih o).mpr (h o w' hserve)

theorem runs_bind {f : α → Program ι ο β} {b : β} {w'' : ω} :
    (p.bind f).Runs serve w b w'' ↔
      ∃ a w', p.Runs serve w a w' ∧ (f a).Runs serve w' b w'' := by
  constructor
  · intro h
    induction p generalizing w with
    | done a => exact ⟨a, w, .done, h⟩
    | request i next ih =>
      cases h with
      | request hserve hnext =>
        obtain ⟨a, w', ha, hf⟩ := ih _ hnext
        exact ⟨a, w', .request hserve ha, hf⟩
  · rintro ⟨a, w', hp, hf⟩
    induction hp with
    | done => exact hf
    | request hserve _ ih => exact .request hserve (ih hf)

end

/-- The run in which `answer` answers every request, if it answers all that are issued. -/
def play {ω : Type x} (answer : (i : ι) → ω → Option (ο i × ω)) :
    Program ι ο α → ω → Option (α × ω)
  | done a, w => some (a, w)
  | request i next, w =>
    match answer i w with
    | none => none
    | some (o, w') => (next o).play answer w'

theorem runs_of_play {ω : Type x} {serve : (i : ι) → ω → ο i → ω → Prop}
    {answer : (i : ι) → ω → Option (ο i × ω)}
    (hserve : ∀ i w o w', answer i w = some (o, w') → serve i w o w') {p : Program ι ο α}
    {w w' : ω} {a : α} (h : p.play answer w = some (a, w')) : p.Runs serve w a w' := by
  induction p generalizing w with
  | done b =>
    cases h
    exact .done
  | request i next ih =>
    simp only [play] at h
    split at h
    · cases h
    · rename_i o w₁ hanswer
      exact .request (hserve i w o w₁ hanswer) (ih o h)

/-- A concrete run witnesses one that ends as `test` says. -/
theorem exists_runs_of_play {ω : Type x} {serve : (i : ι) → ω → ο i → ω → Prop}
    {answer : (i : ι) → ω → Option (ο i × ω)}
    (hserve : ∀ i w o w', answer i w = some (o, w') → serve i w o w') {p : Program ι ο α} {w : ω}
    (test : α → ω → Bool) (h : (p.play answer w).any (fun end' => test end'.1 end'.2) = true) :
    ∃ a w', p.Runs serve w a w' ∧ test a w' = true := by
  cases hplay : p.play answer w with
  | none => simp [hplay] at h
  | some end' =>
    simp only [hplay, Option.any_some] at h
    exact ⟨end'.1, end'.2, runs_of_play hserve hplay, h⟩

end Program

/-! ## Routines -/

/-- A program with local variables `σ` that returns an `α` or throws an `ε`. -/
def Routine (ι : Type u) (ο : ι → Type v) (σ ε α : Type w) : Type (max u v w) :=
  σ → Program ι ο (Except ε α × σ)

namespace Routine

variable {ι : Type u} {ο : ι → Type v} {σ ε α β : Type w}

/-- Go on with the result of a routine, thrown or returned. -/
def andThen (x : Routine ι ο σ ε α) (f : Except ε α → Routine ι ο σ ε β) : Routine ι ο σ ε β :=
  fun s => (x s).bind fun r => f r.1 r.2

def throw (e : ε) : Routine ι ο σ ε α := fun s => .done (.error e, s)

def ofExcept (r : Except ε α) : Routine ι ο σ ε α := fun s => .done (r, s)

instance : Monad (Routine ι ο σ ε) where
  pure a := ofExcept (.ok a)
  bind x f := x.andThen fun
    | .ok a => f a
    | .error e => throw e

def tryCatch (x : Routine ι ο σ ε α) (f : ε → Routine ι ο σ ε α) : Routine ι ο σ ε α :=
  x.andThen fun
    | .ok a => pure a
    | .error e => f e

/-- An exception of the final block replaces the result. -/
def tryFinally (x : Routine ι ο σ ε α) (f : Routine ι ο σ ε PUnit) : Routine ι ο σ ε α :=
  x.andThen fun r => f.andThen fun
    | .ok _ => ofExcept r
    | .error e => throw e

def get : Routine ι ο σ ε σ := fun s => .done (.ok s, s)

def modify (f : σ → σ) : Routine ι ο σ ε PUnit := fun s => .done (.ok ⟨⟩, f s)

/-- Issue a request. -/
def call {ο : ι → Type w} (i : ι) : Routine ι ο σ ε (ο i) :=
  fun s => .request i fun o => .done (.ok o, s)

section
variable {ω : Type x} (serve : (i : ι) → ω → ο i → ω → Prop)

/-- The routine can run from locals and a world to others, with a result. -/
def Runs (x : Routine ι ο σ ε α) (s : σ) (w : ω) (r : Except ε α) (s' : σ) (w' : ω) : Prop :=
  (x s).Runs serve w (r, s') w'

/-- `post` holds wherever a run from here ends. -/
def wp (x : Routine ι ο σ ε α) (post : Except ε α → σ → ω → Prop) (s : σ) (w : ω) : Prop :=
  (x s).wp serve (fun r w' => post r.1 r.2 w') w

variable {serve} {x : Routine ι ο σ ε α} {post post' : Except ε α → σ → ω → Prop} {s : σ} {w : ω}

theorem wp_of_runs {r : Except ε α} {s' : σ} {w' : ω} (h : x.wp serve post s w)
    (hruns : x.Runs serve s w r s' w') : post r s' w' := by
  have hp : (x s).wp serve (fun r w' => post r.1 r.2 w') w := h
  have hpost := Program.wp_of_runs hp hruns
  exact hpost

theorem wp_mono (hpost : ∀ r s w, post r s w → post' r s w) (h : x.wp serve post s w) :
    x.wp serve post' s w :=
  Program.wp_mono (fun r w' => hpost r.1 r.2 w') h

theorem runs_andThen {f : Except ε α → Routine ι ο σ ε β} {r : Except ε β} {s'' : σ} {w'' : ω} :
    (x.andThen f).Runs serve s w r s'' w'' ↔
      ∃ a s' w', x.Runs serve s w a s' w' ∧ (f a).Runs serve s' w' r s'' w'' := by
  refine Program.runs_bind.trans ?_
  constructor
  · rintro ⟨⟨a, s'⟩, w', hx, hf⟩
    exact ⟨a, s', w', hx, hf⟩
  · rintro ⟨a, s', w', hx, hf⟩
    exact ⟨(a, s'), w', hx, hf⟩

theorem wp_andThen {post : Except ε β → σ → ω → Prop} {f : Except ε α → Routine ι ο σ ε β} :
    (x.andThen f).wp serve post s w ↔ x.wp serve (fun r s' w' => (f r).wp serve post s' w') s w :=
  Program.wp_bind

@[simp] theorem wp_bind {post : Except ε β → σ → ω → Prop} {f : α → Routine ι ο σ ε β} :
    (x >>= f).wp serve post s w ↔ x.wp serve (fun r s' w' => match r with
      | .ok a => (f a).wp serve post s' w'
      | .error e => post (.error e) s' w') s w := by
  refine wp_andThen.trans ?_
  constructor <;> refine wp_mono fun r s w h => ?_ <;> cases r <;> exact h

@[simp] theorem wp_tryCatch {f : ε → Routine ι ο σ ε α} :
    (tryCatch x f).wp serve post s w ↔ x.wp serve (fun r s' w' => match r with
      | .ok a => post (.ok a) s' w'
      | .error e => (f e).wp serve post s' w') s w := by
  refine wp_andThen.trans ?_
  constructor <;> refine wp_mono fun r s w h => ?_ <;> cases r <;> exact h

@[simp] theorem wp_tryFinally {f : Routine ι ο σ ε PUnit} :
    (tryFinally x f).wp serve post s w ↔ x.wp serve (fun r s' w' => f.wp serve (fun r' s'' w'' =>
      match r' with
      | .ok _ => post r s'' w''
      | .error e => post (.error e) s'' w'') s' w') s w := by
  refine wp_andThen.trans ?_
  constructor <;> refine wp_mono fun r s w h => ?_
  · refine wp_mono (fun r' s w h => ?_) (wp_andThen.mp h)
    cases r' <;> exact h
  · refine wp_andThen.mpr (wp_mono (fun r' s w h => ?_) h)
    cases r' <;> exact h

@[simp] theorem wp_ofExcept {r : Except ε α} :
    (ofExcept r : Routine ι ο σ ε α).wp serve post s w ↔ post r s w := Iff.rfl

@[simp] theorem wp_pure {a : α} :
    (pure a : Routine ι ο σ ε α).wp serve post s w ↔ post (.ok a) s w := Iff.rfl

@[simp] theorem wp_throw {e : ε} :
    (throw e : Routine ι ο σ ε α).wp serve post s w ↔ post (.error e) s w := Iff.rfl

@[simp] theorem wp_get {post : Except ε σ → σ → ω → Prop} :
    (get : Routine ι ο σ ε σ).wp serve post s w ↔ post (.ok s) s w := Iff.rfl

@[simp] theorem wp_modify {f : σ → σ} {post : Except ε PUnit → σ → ω → Prop} :
    (modify f : Routine ι ο σ ε PUnit).wp serve post s w ↔ post (.ok ⟨⟩) (f s) w := Iff.rfl

end

end Routine
