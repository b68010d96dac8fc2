import Mathlib

/-!
# Programs over a signature of actions

A service method is a tree of actions: it performs an action, receives the answer, and continues
with the rest of its body, or it returns, or it raises. `Prog E R X α` is the type of these trees,
for actions `E`, answers `R e`, exceptions `X` and results `α`; it is a monad with exceptions, so a
method is written in `do` notation.

What an action may answer, and how it changes the state, is a relation
`T : S → (e : E) → R e → S → Prop`, fixed afterwards: the same tree is run against a sequential
store, against one shared by several threads, or against an abstract state that only records
what has been done.

* `Runs T p s r s'`: a run of `p` from `s` ends in `s'` with the value or exception `r`.
* `Reaches T p s e s'`: a run of `p` from `s` stands in `s'`, about to perform `e`. A process that
  dies, or whose connection is lost, stops at such a point.
* `wp T C Q p s`: every run of `p` from `s` ends in `Q`, and `C e` holds whenever it is about to
  perform `e`. `wp_iff` says that this is what it means; `wp_bind`, `wp_tryCatch` and `wp_mono` are
  the rules.
-/

namespace ChatBackend

/-- Trees of actions `E` with answers `R`, ending in a result or an exception. -/
inductive Prog (E : Type) (R : E → Type) (X α : Type) : Type
  | ret (a : α)
  | raise (x : X)
  | act (e : E) (k : R e → Prog E R X α)

namespace Prog

variable {E : Type} {R : E → Type} {X α β γ : Type}

/-- Sequencing: an exception of the first program skips the second. -/
def bind : Prog E R X α → (α → Prog E R X β) → Prog E R X β
  | ret a, f => f a
  | raise x, _ => raise x
  | act e k, f => act e fun r => (k r).bind f

/-- Handling the exceptions of a program. -/
def tryCatch : Prog E R X α → (X → Prog E R X α) → Prog E R X α
  | ret a, _ => ret a
  | raise x, h => h x
  | act e k, h => act e fun r => (k r).tryCatch h

/-- Perform one action and return its answer. -/
def perform (e : E) : Prog E R X (R e) := act e ret

instance : Monad (Prog E R X) where
  pure := ret
  bind := bind

instance : MonadExceptOf X (Prog E R X) where
  throw := raise
  tryCatch := tryCatch

@[simp] theorem pure_eq (a : α) : (pure a : Prog E R X α) = ret a := rfl

@[simp] theorem throw_eq (x : X) : (throw x : Prog E R X α) = raise x := rfl

@[simp] theorem bind_eq (p : Prog E R X α) (f : α → Prog E R X β) : p >>= f = p.bind f := rfl

@[simp] theorem tryCatch_eq (p : Prog E R X α) (h : X → Prog E R X α) :
    MonadExcept.tryCatch p h = p.tryCatch h := rfl

@[simp] theorem ret_bind (a : α) (f : α → Prog E R X β) : (ret a).bind f = f a := rfl

@[simp] theorem raise_bind (x : X) (f : α → Prog E R X β) : (raise x).bind f = raise x := rfl

@[simp] theorem act_bind (e : E) (k : R e → Prog E R X α) (f : α → Prog E R X β) :
    (act e k).bind f = act e fun r => (k r).bind f := rfl

@[simp] theorem ret_tryCatch (a : α) (h : X → Prog E R X α) : (ret a).tryCatch h = ret a := rfl

@[simp] theorem raise_tryCatch (x : X) (h : X → Prog E R X α) : (raise x).tryCatch h = h x := rfl

@[simp] theorem act_tryCatch (e : E) (k : R e → Prog E R X α) (h : X → Prog E R X α) :
    (act e k).tryCatch h = act e fun r => (k r).tryCatch h := rfl

@[simp] theorem perform_bind (e : E) (f : R e → Prog E R X β) :
    (perform e).bind f = act e f := rfl

theorem bind_ret (p : Prog E R X α) : p.bind ret = p := by
  induction p with
  | ret a => rfl
  | raise x => rfl
  | act e k ih => simp only [act_bind, ih]

theorem bind_assoc (p : Prog E R X α) (f : α → Prog E R X β) (g : β → Prog E R X γ) :
    (p.bind f).bind g = p.bind fun a => (f a).bind g := by
  induction p with
  | ret a => rfl
  | raise x => rfl
  | act e k ih => simp only [act_bind, ih]

instance : LawfulMonad (Prog E R X) :=
  LawfulMonad.mk' _ bind_ret (fun _ _ => rfl) bind_assoc

/-! ## Runs -/

section Runs

variable {S : Type} (T : S → (e : E) → R e → S → Prop)

/-- A complete run. -/
inductive Runs : Prog E R X α → S → Except X α → S → Prop
  | ret (a : α) (s : S) : Runs (ret a) s (.ok a) s
  | raise (x : X) (s : S) : Runs (raise x) s (.error x) s
  | act {e : E} {k : R e → Prog E R X α} {s s₁ s' : S} {r : R e} {o : Except X α}
      (h : T s e r s₁) (hk : Runs (k r) s₁ o s') : Runs (act e k) s o s'

/-- A run that stands before an action. -/
inductive Reaches : Prog E R X α → S → E → S → Prop
  | here (e : E) (k : R e → Prog E R X α) (s : S) : Reaches (act e k) s e s
  | act {e e' : E} {k : R e → Prog E R X α} {s s₁ s' : S} {r : R e}
      (h : T s e r s₁) (hk : Reaches (k r) s₁ e' s') : Reaches (act e k) s e' s'

/-- Every run ends in `Q`, and `C e` holds whenever the run is about to perform `e`. -/
def wp (C : E → S → Prop) (Q : Except X α → S → Prop) : Prog E R X α → S → Prop
  | ret a, s => Q (.ok a) s
  | raise x, s => Q (.error x) s
  | act e k, s => C e s ∧ ∀ r s', T s e r s' → (k r).wp C Q s'

variable {T} {C : E → S → Prop} {Q Q' : Except X α → S → Prop}

@[simp] theorem wp_ret (a : α) (s : S) : (ret a : Prog E R X α).wp T C Q s ↔ Q (.ok a) s := Iff.rfl

@[simp] theorem wp_raise (x : X) (s : S) :
    (raise x : Prog E R X α).wp T C Q s ↔ Q (.error x) s := Iff.rfl

theorem wp_act (e : E) (k : R e → Prog E R X α) (s : S) :
    (act e k).wp T C Q s ↔ C e s ∧ ∀ r s', T s e r s' → (k r).wp T C Q s' := Iff.rfl

theorem wp_mono {p : Prog E R X α} {s : S} (hQ : ∀ o s', Q o s' → Q' o s')
    (h : p.wp T C Q s) : p.wp T C Q' s := by
  induction p generalizing s with
  | ret a => exact hQ _ _ h
  | raise x => exact hQ _ _ h
  | act e k ih => exact ⟨h.1, fun r s' hT => ih r (h.2 r s' hT)⟩

/-- What has to hold after the first program of a sequence. -/
def bindPost (T : S → (e : E) → R e → S → Prop) (C : E → S → Prop)
    (Q : Except X β → S → Prop) (f : α → Prog E R X β) : Except X α → S → Prop
  | .ok a, s => (f a).wp T C Q s
  | .error x, s => Q (.error x) s

theorem wp_bind {Q : Except X β → S → Prop} (p : Prog E R X α) (f : α → Prog E R X β) (s : S) :
    (p.bind f).wp T C Q s ↔ p.wp T C (bindPost T C Q f) s := by
  induction p generalizing s with
  | ret a => rfl
  | raise x => rfl
  | act e k ih => simp only [act_bind, wp_act, ih]

/-- What has to hold after the body of an exception handler. -/
def catchPost (T : S → (e : E) → R e → S → Prop) (C : E → S → Prop)
    (Q : Except X α → S → Prop) (h : X → Prog E R X α) : Except X α → S → Prop
  | .ok a, s => Q (.ok a) s
  | .error x, s => (h x).wp T C Q s

theorem wp_tryCatch (p : Prog E R X α) (h : X → Prog E R X α) (s : S) :
    (p.tryCatch h).wp T C Q s ↔ p.wp T C (catchPost T C Q h) s := by
  induction p generalizing s with
  | ret a => rfl
  | raise x => rfl
  | act e k ih => simp only [tryCatch, wp_act, ih]

theorem Runs.of_wp {p : Prog E R X α} {s s' : S} {o : Except X α} (h : Runs T p s o s')
    (hp : p.wp T C Q s) : Q o s' := by
  induction h with
  | ret a s => exact hp
  | raise x s => exact hp
  | act hT _ ih => exact ih (hp.2 _ _ hT)

/-- A run of the first program of a sequence that returns, and a run of what follows. -/
theorem Runs.bind {p : Prog E R X α} {f : α → Prog E R X β} {s s₁ s' : S} {a : α} {o : Except X β}
    (h : Runs T p s (.ok a) s₁) (h' : Runs T (f a) s₁ o s') : Runs T (p.bind f) s o s' := by
  generalize hret : (Except.ok a : Except X α) = o₁ at h
  induction h with
  | ret b s =>
    cases hret
    exact h'
  | raise x s => cases hret
  | act hT _ ih => exact .act hT (ih h' hret)

theorem Reaches.of_wp {p : Prog E R X α} {s s' : S} {e : E} (h : Reaches T p s e s')
    (hp : p.wp T C Q s) : C e s' := by
  induction h with
  | here e k s => exact hp.1
  | act hT _ ih => exact ih (hp.2 _ _ hT)

/-- The weakest precondition speaks about all runs and about all the points they pass. -/
theorem wp_iff (p : Prog E R X α) (s : S) :
    p.wp T C Q s ↔ (∀ o s', Runs T p s o s' → Q o s') ∧ ∀ e s', Reaches T p s e s' → C e s' := by
  refine ⟨fun h => ⟨fun o s' hr => hr.of_wp h, fun e s' hr => hr.of_wp h⟩, ?_⟩
  induction p generalizing s with
  | ret a => exact fun h => h.1 _ _ (.ret a s)
  | raise x => exact fun h => h.1 _ _ (.raise x s)
  | act e k ih =>
    rintro ⟨hQ, hC⟩
    refine ⟨hC e s (.here e k s), fun r s' hT => ih r s' ⟨fun o s'' hr => ?_, fun e' s'' hr => ?_⟩⟩
    · exact hQ _ _ (.act hT hr)
    · exact hC _ _ (.act hT hr)

/-- What the actions keep that satisfy `C`, a run of such actions keeps. -/
theorem Runs.keeps_of_wp {Φ : S → Prop} {p : Prog E R X α} {s s' : S} {o : Except X α}
    (h : Runs T p s o s') (hp : p.wp T C Q s)
    (hΦ : ∀ e s r s', C e s → Φ s → T s e r s' → Φ s') (hs : Φ s) : Φ s' := by
  induction h with
  | ret a s => exact hs
  | raise x s => exact hs
  | act hT _ ih => exact ih (hp.2 _ _ hT) (hΦ _ _ _ _ hp.1 hs hT)

/-- So it does as far as it goes. -/
theorem Reaches.keeps_of_wp {Φ : S → Prop} {p : Prog E R X α} {s s' : S} {e : E}
    (h : Reaches T p s e s') (hp : p.wp T C Q s)
    (hΦ : ∀ e s r s', C e s → Φ s → T s e r s' → Φ s') (hs : Φ s) : Φ s' := by
  induction h with
  | here e k s => exact hs
  | act hT _ ih => exact ih (hp.2 _ _ hT) (hΦ _ _ _ _ hp.1 hs hT)

/-- **Simulation**: where every action that satisfies `C` can be performed in related states, with
the same answer and related states after it, so can a run of such actions. -/
theorem Runs.simulates {Rel : S → S → Prop} {p : Prog E R X α} {s s₁ s' : S} {o : Except X α}
    (h : Runs T p s o s') (hp : p.wp T C Q s)
    (hRel : ∀ e s s₁ r s', C e s → Rel s s₁ → T s e r s' → ∃ s₁', T s₁ e r s₁' ∧ Rel s' s₁')
    (hs : Rel s s₁) : ∃ s₁', Runs T p s₁ o s₁' ∧ Rel s' s₁' := by
  induction h generalizing s₁ with
  | ret a s => exact ⟨s₁, .ret a s₁, hs⟩
  | raise x s => exact ⟨s₁, .raise x s₁, hs⟩
  | act hT _ ih =>
    obtain ⟨s₂, hT₂, hs₂⟩ := hRel _ _ _ _ _ hp.1 hs hT
    obtain ⟨s₁', hr, hs'⟩ := ih (hp.2 _ _ hT) hs₂
    exact ⟨s₁', .act hT₂ hr, hs'⟩

/-- Where every action that satisfies `C` can be performed, a program of such actions has a run. -/
theorem exists_runs {p : Prog E R X α} {s : S} (h : p.wp T C Q s)
    (hT : ∀ e s, C e s → ∃ r s', T s e r s') : ∃ o s', Runs T p s o s' := by
  induction p generalizing s with
  | ret a => exact ⟨_, _, .ret a s⟩
  | raise x => exact ⟨_, _, .raise x s⟩
  | act e k ih =>
    obtain ⟨r, s', hs'⟩ := hT e s h.1
    obtain ⟨o, s'', hr⟩ := ih r (h.2 r s' hs')
    exact ⟨o, s'', .act hs' hr⟩

/-- A weakest precondition over a state is one over a state that carries more. -/
theorem wp_comp {S' : Type} (π : S' → S) {T' : S' → (e : E) → R e → S' → Prop}
    (hT : ∀ s e r s', T' s e r s' → T (π s) e r (π s')) {p : Prog E R X α} {s : S'}
    (h : p.wp T C Q (π s)) : p.wp T' (fun e s => C e (π s)) (fun o s => Q o (π s)) s := by
  induction p generalizing s with
  | ret a => exact h
  | raise x => exact h
  | act e k ih => exact ⟨h.1, fun r s' hs => ih r (h.2 r _ (hT _ _ _ _ hs))⟩

/-! ## Programs that perform some of the actions only -/

/-- Every action of the program is an `A`. -/
def Only (A : E → Prop) : Prog E R X α → Prop
  | ret _ => True
  | raise _ => True
  | act e k => A e ∧ ∀ r, (k r).Only A

variable {A : E → Prop}

@[simp] theorem only_ret (a : α) : (ret a : Prog E R X α).Only A := trivial

@[simp] theorem only_raise (x : X) : (raise x : Prog E R X α).Only A := trivial

@[simp] theorem only_act (e : E) (k : R e → Prog E R X α) :
    (act e k).Only A ↔ A e ∧ ∀ r, (k r).Only A := Iff.rfl

theorem Only.bind {p : Prog E R X α} {f : α → Prog E R X β} (hp : p.Only A)
    (hf : ∀ a, (f a).Only A) : (p.bind f).Only A := by
  induction p with
  | ret a => exact hf a
  | raise x => trivial
  | act e k ih => exact ⟨hp.1, fun r => ih r (hp.2 r)⟩

theorem Only.mono {B : E → Prop} {p : Prog E R X α} (hp : p.Only A) (hAB : ∀ e, A e → B e) :
    p.Only B := by
  induction p with
  | ret a => trivial
  | raise x => trivial
  | act e k ih => exact ⟨hAB e hp.1, fun r => ih r (hp.2 r)⟩

theorem Only.tryCatch {p : Prog E R X α} {h : X → Prog E R X α} (hp : p.Only A)
    (hh : ∀ x, (h x).Only A) : (p.tryCatch h).Only A := by
  induction p with
  | ret a => trivial
  | raise x => exact hh x
  | act e k ih => exact ⟨hp.1, fun r => ih r (hp.2 r)⟩

/-- A program of such actions is about to perform one whenever it performs an action, and keeps what
they keep. -/
theorem Only.wp_of {T : S → (e : E) → R e → S → Prop} {C : E → S → Prop} {Φ : S → Prop}
    {p : Prog E R X α} {s : S} (hp : p.Only A)
    (hA : ∀ e, A e → ∀ s, Φ s → C e s ∧ ∀ r s', T s e r s' → Φ s') (hs : Φ s) :
    p.wp T C (fun _ s' => Φ s') s := by
  induction p generalizing s with
  | ret a => exact hs
  | raise x => exact hs
  | act e k ih =>
    obtain ⟨hC, hkeep⟩ := hA e hp.1 s hs
    exact ⟨hC, fun r s' hT => ih r (hp.2 r) (hkeep r s' hT)⟩

/-- What every action of a program keeps, the program keeps. -/
theorem Only.wp {T : S → (e : E) → R e → S → Prop} {Φ : S → Prop} {p : Prog E R X α} {s : S}
    (hp : p.Only A) (hA : ∀ e, A e → ∀ s r s', Φ s → T s e r s' → Φ s') (hs : Φ s) :
    p.wp T (fun _ _ => True) (fun _ s' => Φ s') s := by
  induction p generalizing s with
  | ret a => exact hs
  | raise x => exact hs
  | act e k ih => exact ⟨trivial, fun r s' hT => ih r (hp.2 r) (hA e hp.1 s r s' hs hT)⟩

/-! ## Running a program against a handler -/

/-- Run a program against a handler that answers every action. -/
def eval (h : S → (e : E) → R e × S) : Prog E R X α → S → Except X α × S
  | ret a, s => (.ok a, s)
  | raise x, s => (.error x, s)
  | act e k, s => (k (h s e).1).eval h (h s e).2

/-- The actions of the computation, each with the state in which it is performed. -/
def trace (h : S → (e : E) → R e × S) : Prog E R X α → S → List (E × S)
  | ret _, _ => []
  | raise _, _ => []
  | act e k, s => (e, s) :: (k (h s e).1).trace h (h s e).2

/-- A handler whose answers `T` allows computes a run. The handler may carry more state than `T`
looks at, such as the answers still to be given. -/
theorem eval_runs {S' : Type} (π : S' → S) (h : S' → (e : E) → R e × S')
    (hT : ∀ s e, T (π s) e (h s e).1 (π (h s e).2)) (p : Prog E R X α) (s : S') :
    Runs T p (π s) (p.eval h s).1 (π (p.eval h s).2) := by
  induction p generalizing s with
  | ret a => exact .ret a _
  | raise x => exact .raise x _
  | act e k ih => exact .act (hT s e) (ih _ _)

/-- An action of the computation is reached. -/
theorem trace_reaches {S' : Type} (π : S' → S) (h : S' → (e : E) → R e × S')
    (hT : ∀ s e, T (π s) e (h s e).1 (π (h s e).2)) (p : Prog E R X α) (s : S') {e : E} {s' : S'}
    (hmem : (e, s') ∈ p.trace h s) : Reaches T p (π s) e (π s') := by
  induction p generalizing s with
  | ret a => cases hmem
  | raise x => cases hmem
  | act e₀ k ih =>
    rcases List.mem_cons.1 hmem with hhere | hlater
    · obtain ⟨rfl, rfl⟩ := Prod.mk.inj hhere
      exact .here _ _ _
    · exact .act (hT s e₀) (ih _ _ hlater)

end Runs

/-! ## A program of one component inside another -/

section Embed

variable {E' : Type} {R' : E' → Type} {X' : Type}

/-- Perform the actions of a component as actions of the system it is part of, its exceptions as
exceptions of that system. -/
def embed (i : E → E') (back : (e : E) → R' (i e) → R e) (x : X → X') :
    Prog E R X α → Prog E' R' X' α
  | ret a => ret a
  | raise y => raise (x y)
  | act e k => act (i e) fun r => (k (back e r)).embed i back x

theorem Only.embed {A : E → Prop} {B : E' → Prop} {i : E → E'} {back : (e : E) → R' (i e) → R e}
    {x : X → X'} {p : Prog E R X α} (hp : p.Only A) (hAB : ∀ e, A e → B (i e)) :
    (p.embed i back x).Only B := by
  induction p with
  | ret a => trivial
  | raise y => trivial
  | act e k ih => exact ⟨hAB e hp.1, fun r => ih _ (hp.2 _)⟩

section

variable (i : E → E') (back : (e : E) → R' (i e) → R e) (x : X → X')

@[simp] theorem embed_ret (a : α) : (ret a : Prog E R X α).embed i back x = ret a := rfl

@[simp] theorem embed_raise (y : X) :
    (raise y : Prog E R X α).embed i back x = raise (x y) := rfl

@[simp] theorem embed_act (e : E) (k : R e → Prog E R X α) :
    (act e k).embed i back x = act (i e) fun r => (k (back e r)).embed i back x := rfl

@[simp] theorem embed_bind (p : Prog E R X α) (f : α → Prog E R X β) :
    (p.bind f).embed i back x = (p.embed i back x).bind fun a => (f a).embed i back x := by
  induction p with
  | ret a => rfl
  | raise y => rfl
  | act e k ih => simp only [act_bind, embed_act, ih]

end

/-- What a postcondition of the system says of the component's results. -/
def embedPost {S : Type} (x : X → X') (Q : Except X' α → S → Prop) : Except X α → S → Prop
  | .ok a, s => Q (.ok a) s
  | .error y, s => Q (.error (x y)) s

end Embed

end Prog

end ChatBackend
