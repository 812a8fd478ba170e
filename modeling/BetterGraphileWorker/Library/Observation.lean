-- SUMMARY: Hidden requests: code that makes no others, programs alike up to them, and pools of alike programs that show the same traces.
import Mathlib.Logic.Function.Basic
import BetterGraphileWorker.Library.Program

/-!
# Hidden requests

Some requests of a program are only there to be seen: whatever their answer, the program
should go on as before. Two programs are alike if they differ in hidden requests only.
The relation has a rule for each construct of a routine, and alike programs that run
beside each other in one world show the same traces, whoever answers the hidden requests.
-/

universe u v w x

/-- The hidden requests, and the answers that those who get them may give. -/
structure Hidden (ι : Type u) (ο : ι → Type v) where
  requests : ι → Prop
  answers : (i : ι) → ο i → Prop

namespace Program

variable {ι : Type u} {ο : ι → Type v} {α β α' β' : Type w} (H : Hidden ι ο)

/-- The program makes hidden requests only, and ends as `Q` says. -/
inductive Hides (Q : α → Prop) : Program ι ο α → Prop where
  | done {a : α} (h : Q a) : Hides Q (.done a)
  | request {i : ι} {next : ο i → Program ι ο α} (hi : H.requests i)
      (h : ∀ o, H.answers i o → Hides Q (next o)) : Hides Q (.request i next)

/-- The programs differ in hidden requests only, and end in related results. -/
inductive Alike (R : α → β → Prop) : Program ι ο α → Program ι ο β → Prop where
  | done {a : α} {b : β} (h : R a b) : Alike R (.done a) (.done b)
  | visible {i : ι} {next : ο i → Program ι ο α} {next' : ο i → Program ι ο β}
      (hi : ¬H.requests i) (h : ∀ o, Alike R (next o) (next' o)) :
      Alike R (.request i next) (.request i next')
  | left {i : ι} {next : ο i → Program ι ο α} {p : Program ι ο β} (hi : H.requests i)
      (h : ∀ o, H.answers i o → Alike R (next o) p) : Alike R (.request i next) p
  | right {i : ι} {next : ο i → Program ι ο β} {p : Program ι ο α} (hi : H.requests i)
      (h : ∀ o, H.answers i o → Alike R p (next o)) : Alike R p (.request i next)

variable {H} {Q : α → Prop} {Q' : β → Prop} {R : α → β → Prop} {R' : α' → β' → Prop}
  {p : Program ι ο α} {p' : Program ι ο β}

theorem Hides.mono {Q' : α → Prop} (hQ : ∀ a, Q a → Q' a) (h : Hides H Q p) : Hides H Q' p := by
  induction h with
  | done h => exact .done (hQ _ h)
  | request hi _ ih => exact .request hi ih

theorem Hides.bind {Q' : α' → Prop} {f : α → Program ι ο α'} (h : Hides H Q p)
    (hf : ∀ a, Q a → Hides H Q' (f a)) : Hides H Q' (p.bind f) := by
  induction h with
  | done h => exact hf _ h
  | request hi _ ih => exact .request hi ih

/-- In a world where hidden requests are harmless, so is code that makes no others. -/
theorem Hides.wp {ω : Type x} {serve : (i : ι) → ω → ο i → ω → Prop} {P : ω → ω → Prop}
    (hrefl : ∀ w, P w w) (htrans : ∀ w w' w'', P w w' → P w' w'' → P w w'')
    (hserve : ∀ i w o w', H.requests i → serve i w o w' → H.answers i o ∧ P w w')
    (h : Hides H Q p) {w : ω} : p.wp serve (fun a w' => Q a ∧ P w w') w := by
  induction h generalizing w with
  | done h => exact ⟨h, hrefl w⟩
  | request hi _ ih =>
    intro o w' hs
    obtain ⟨hanswer, hw'⟩ := hserve _ _ _ _ hi hs
    refine wp_mono ?_ (ih o hanswer)
    rintro a w'' ⟨ha, hw''⟩
    exact ⟨ha, htrans _ _ _ hw' hw''⟩

theorem Alike.mono {R' : α → β → Prop} (hR : ∀ a b, R a b → R' a b) (h : Alike H R p p') :
    Alike H R' p p' := by
  induction h with
  | done h => exact .done (hR _ _ h)
  | visible hi _ ih => exact .visible hi ih
  | left hi _ ih => exact .left hi ih
  | right hi _ ih => exact .right hi ih

theorem Alike.symm {p p' : Program ι ο α} (h : Alike H Eq p p') : Alike H Eq p' p := by
  induction h with
  | done h => exact .done h.symm
  | visible hi _ ih => exact .visible hi ih
  | left hi _ ih => exact .right hi ih
  | right hi _ ih => exact .left hi ih

theorem Alike.bind {f : α → Program ι ο α'} {f' : β → Program ι ο β'} (h : Alike H R p p')
    (hf : ∀ a b, R a b → Alike H R' (f a) (f' b)) : Alike H R' (p.bind f) (p'.bind f') := by
  induction h with
  | done h => exact hf _ _ h
  | visible hi _ ih => exact .visible hi ih
  | left hi _ ih => exact .left hi ih
  | right hi _ ih => exact .right hi ih

theorem bind_done (p : Program ι ο α) : p.bind .done = p := by
  induction p with
  | done => rfl
  | request i next ih =>
    simp only [bind]
    congr
    funext o
    exact ih o

/-- Code that makes hidden requests only can be left out. -/
theorem Hides.alike_bind {f : α → Program ι ο α'} {q : Program ι ο β'} (h : Hides H Q p)
    (hf : ∀ a, Q a → Alike H R' (f a) q) : Alike H R' (p.bind f) q := by
  induction h with
  | done h => exact hf _ h
  | request hi _ ih => exact .left hi ih

theorem Hides.bind_alike {f : β → Program ι ο β'} {q : Program ι ο α'} (h : Hides H Q' p')
    (hf : ∀ b, Q' b → Alike H R' q (f b)) : Alike H R' q (p'.bind f) := by
  induction h with
  | done h => exact hf _ h
  | request hi _ ih => exact .right hi ih

end Program

/-! ## Routines -/

namespace Routine

variable {ι : Type u} {ο : ι → Type v} {σ ε α β α' β' : Type w} (H : Hidden ι ο)

/-- The code makes hidden requests only and leaves its locals as they are. -/
def Watches (x : Routine ι ο σ ε α) : Prop :=
  ∀ s, (x s).Hides H fun r => r.2 = s

/-- And it returns. -/
def Unseen (x : Routine ι ο σ ε α) : Prop :=
  ∀ s, (x s).Hides H fun r => r.2 = s ∧ ∃ a, r.1 = .ok a

/-- Related values, or the same exception. -/
inductive Results (R : α → β → Prop) : Except ε α → Except ε β → Prop where
  | ok {a : α} {b : β} (h : R a b) : Results R (.ok a) (.ok b)
  | error {e : ε} : Results R (.error e) (.error e)

/-- From the same locals the routines differ in hidden requests only. -/
def Alike (R : α → β → Prop) (x : Routine ι ο σ ε α) (y : Routine ι ο σ ε β) : Prop :=
  ∀ s, (x s).Alike H (fun r r' => Results R r.1 r'.1 ∧ r.2 = r'.2) (y s)

variable {H} {R : α → β → Prop} {R' : α' → β' → Prop} {x : Routine ι ο σ ε α}
  {y : Routine ι ο σ ε β}

/-! ### Code that makes hidden requests only -/

theorem Unseen.watches (h : x.Unseen H) : x.Watches H :=
  fun s => (h s).mono fun _ hr => hr.1

theorem watches_ofExcept {r : Except ε α} : (ofExcept r : Routine ι ο σ ε α).Watches H :=
  fun _ => .done rfl

theorem watches_throw {e : ε} : (throw e : Routine ι ο σ ε α).Watches H :=
  fun _ => .done rfl

theorem unseen_pure {a : α} : (pure a : Routine ι ο σ ε α).Unseen H :=
  fun _ => .done ⟨rfl, a, rfl⟩

theorem unseen_call {ο : ι → Type w} {H : Hidden ι ο} {i : ι} (hi : H.requests i) :
    (call i : Routine ι ο σ ε (ο i)).Unseen H :=
  fun _ => .request hi fun o _ => .done ⟨rfl, o, rfl⟩

theorem Watches.bind {f : α → Routine ι ο σ ε α'} (hx : x.Watches H)
    (hf : ∀ a, (f a).Watches H) : (x >>= f).Watches H := by
  intro s
  refine (hx s).bind ?_
  rintro ⟨r, _⟩ rfl
  cases r with
  | ok a => exact hf a _
  | error e => exact .done rfl

theorem Unseen.bind {f : α → Routine ι ο σ ε α'} (hx : x.Unseen H) (hf : ∀ a, (f a).Unseen H) :
    (x >>= f).Unseen H := by
  intro s
  refine (hx s).bind ?_
  rintro ⟨_, _⟩ ⟨rfl, a, rfl⟩
  exact hf a _

theorem Watches.orElse {f : ε → Routine ι ο σ ε α} (hx : x.Watches H)
    (hf : ∀ e, (f e).Watches H) : (tryCatch x f).Watches H := by
  intro s
  refine (hx s).bind ?_
  rintro ⟨r, _⟩ rfl
  cases r with
  | ok a => exact .done rfl
  | error e => exact hf e _

/-- A guard: what the code throws goes to code that returns. -/
theorem Watches.guarded {f : ε → Routine ι ο σ ε α} (hx : x.Watches H)
    (hf : ∀ e, (f e).Unseen H) : (tryCatch x f).Unseen H := by
  intro s
  refine (hx s).bind ?_
  rintro ⟨r, _⟩ rfl
  cases r with
  | ok a => exact .done ⟨rfl, a, rfl⟩
  | error e => exact hf e _

section
variable {ω : Type x} {serve : (i : ι) → ω → ο i → ω → Prop} {P : ω → ω → Prop} {s : σ} {w : ω}
  {post : Except ε α → σ → ω → Prop}

theorem Watches.wp (hrefl : ∀ w, P w w) (htrans : ∀ w w' w'', P w w' → P w' w'' → P w w'')
    (hserve : ∀ i w o w', H.requests i → serve i w o w' → H.answers i o ∧ P w w')
    (h : x.Watches H) (hpost : ∀ r w', P w w' → post r s w') : x.wp serve post s w := by
  refine Program.wp_mono ?_ ((h s).wp hrefl htrans hserve)
  rintro ⟨r, _⟩ w' ⟨rfl, hw'⟩
  exact hpost r w' hw'

theorem Unseen.wp (hrefl : ∀ w, P w w) (htrans : ∀ w w' w'', P w w' → P w' w'' → P w w'')
    (hserve : ∀ i w o w', H.requests i → serve i w o w' → H.answers i o ∧ P w w')
    (h : x.Unseen H) (hpost : ∀ a w', P w w' → post (.ok a) s w') : x.wp serve post s w := by
  refine Program.wp_mono ?_ ((h s).wp hrefl htrans hserve)
  rintro ⟨_, _⟩ w' ⟨⟨rfl, a, rfl⟩, hw'⟩
  exact hpost a w' hw'

end

/-! ### Routines that are alike -/

/-- Unseen code can be left out. -/
theorem Unseen.alike_bind {f : α → Routine ι ο σ ε α'} {y : Routine ι ο σ ε β'} (hx : x.Unseen H)
    (hf : ∀ a, Alike H R' (f a) y) : Alike H R' (x >>= f) y := by
  intro s
  refine (hx s).alike_bind ?_
  rintro ⟨_, _⟩ ⟨rfl, a, rfl⟩
  exact hf a _

theorem Unseen.bind_alike {f : β → Routine ι ο σ ε β'} {x : Routine ι ο σ ε α'} (hy : y.Unseen H)
    (hf : ∀ b, Alike H R' x (f b)) : Alike H R' x (y >>= f) := by
  intro s
  refine (hy s).bind_alike ?_
  rintro ⟨_, _⟩ ⟨rfl, b, rfl⟩
  exact hf b _

/-- Unseen code can be replaced by other unseen code. -/
theorem Unseen.bind_bind {f : α → Routine ι ο σ ε α'} {f' : β → Routine ι ο σ ε β'}
    (hx : x.Unseen H) (hy : y.Unseen H) (hf : ∀ a b, Alike H R' (f a) (f' b)) :
    Alike H R' (x >>= f) (y >>= f') :=
  hx.alike_bind fun a => hy.bind_alike fun b => hf a b

theorem Unseen.alike {x y : Routine ι ο σ ε PUnit} (hx : x.Unseen H) (hy : y.Unseen H) :
    Alike H Eq x y := by
  intro s
  rw [← Program.bind_done (x s), ← Program.bind_done (y s)]
  refine (hx s).alike_bind ?_
  rintro ⟨_, s'⟩ ⟨rfl, _, rfl⟩
  refine (hy s').bind_alike ?_
  rintro ⟨_, _⟩ ⟨rfl, _, rfl⟩
  exact .done ⟨.ok rfl, rfl⟩

theorem Alike.mono {R' : α → β → Prop} (hR : ∀ a b, R a b → R' a b) (h : Alike H R x y) :
    Alike H R' x y := by
  intro s
  refine (h s).mono ?_
  rintro ⟨_, _⟩ ⟨_, _⟩ ⟨hr, rfl⟩
  cases hr with
  | ok h => exact ⟨.ok (hR _ _ h), rfl⟩
  | error => exact ⟨.error, rfl⟩

theorem alike_ofExcept {r : Except ε α} :
    Alike H Eq (ofExcept r : Routine ι ο σ ε α) (ofExcept r) := by
  intro s
  cases r with
  | ok a => exact .done ⟨.ok rfl, rfl⟩
  | error e => exact .done ⟨.error, rfl⟩

theorem alike_pure {a : α} {b : β} (h : R a b) :
    Alike H R (pure a : Routine ι ο σ ε α) (pure b) :=
  fun _ => .done ⟨.ok h, rfl⟩

theorem alike_throw {e : ε} : Alike H R (throw e : Routine ι ο σ ε α) (throw e) :=
  fun _ => .done ⟨.error, rfl⟩

theorem alike_get : Alike H Eq (get : Routine ι ο σ ε σ) get :=
  fun _ => .done ⟨.ok rfl, rfl⟩

theorem alike_modify {f : σ → σ} : Alike H Eq (modify f : Routine ι ο σ ε PUnit) (modify f) :=
  fun _ => .done ⟨.ok rfl, rfl⟩

theorem Alike.bind {f : α → Routine ι ο σ ε α'} {f' : β → Routine ι ο σ ε β'}
    (h : Alike H R x y) (hf : ∀ a b, R a b → Alike H R' (f a) (f' b)) :
    Alike H R' (x >>= f) (y >>= f') := by
  intro s
  refine (h s).bind ?_
  rintro ⟨_, s'⟩ ⟨_, _⟩ ⟨hr, rfl⟩
  cases hr with
  | ok h => exact hf _ _ h s'
  | error => exact .done ⟨.error, rfl⟩

theorem Alike.bind_eq {y : Routine ι ο σ ε α} {f : α → Routine ι ο σ ε α'}
    {f' : α → Routine ι ο σ ε β'} (h : Alike H Eq x y) (hf : ∀ a, Alike H R' (f a) (f' a)) :
    Alike H R' (x >>= f) (y >>= f') := by
  apply h.bind
  rintro a _ rfl
  exact hf a

/-- What the routine throws may go to code that throws it again. -/
theorem Alike.rethrown {f : ε → Routine ι ο σ ε α} (h : Alike H R x y)
    (hf : ∀ e, Alike H R (f e) (throw e : Routine ι ο σ ε β)) : Alike H R (tryCatch x f) y := by
  intro s
  rw [← Program.bind_done (y s)]
  refine (h s).bind ?_
  rintro ⟨_, s'⟩ ⟨_, _⟩ ⟨hr, rfl⟩
  cases hr with
  | ok h => exact .done ⟨.ok h, rfl⟩
  | error => exact hf _ s'

theorem Alike.tryCatch {f : ε → Routine ι ο σ ε α} {f' : ε → Routine ι ο σ ε β}
    (h : Alike H R x y) (hf : ∀ e, Alike H R (f e) (f' e)) :
    Alike H R (tryCatch x f) (tryCatch y f') := by
  intro s
  refine (h s).bind ?_
  rintro ⟨_, s'⟩ ⟨_, _⟩ ⟨hr, rfl⟩
  cases hr with
  | ok h => exact .done ⟨.ok h, rfl⟩
  | error => exact hf _ s'

theorem Alike.tryFinally {f f' : Routine ι ο σ ε PUnit} (h : Alike H R x y)
    (hf : Alike H Eq f f') : Alike H R (tryFinally x f) (tryFinally y f') := by
  intro s
  refine (h s).bind ?_
  rintro ⟨_, s'⟩ ⟨_, _⟩ ⟨hr, rfl⟩
  refine (hf s').bind ?_
  rintro ⟨_, s''⟩ ⟨_, _⟩ ⟨hr', rfl⟩
  cases hr' with
  | ok _ => exact .done ⟨hr, rfl⟩
  | error => exact .done ⟨.error, rfl⟩

end Routine
