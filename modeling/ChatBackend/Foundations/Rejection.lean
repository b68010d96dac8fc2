import ChatBackend.Foundations.Solo

/-!
# Refused actions

A program against a server that refuses some of its actions: `guarded` raises at the first of them, an
exception of its own that no handler of the program catches. A program all of whose actions are
accepted is not changed (`wp_guarded_of_only`).
-/

namespace ChatBackend.Prog

variable {E : Type} {R : E → Type} {X α β : Type} (ok : E → Bool)

/-- The program, as it runs when the actions that are not `ok` are refused; the exceptions of its own
are `some`. -/
def guarded : Prog E R X α → Prog E R (Option X) α
  | ret a => ret a
  | raise x => raise (some x)
  | act e k => if ok e then act e fun r => (k r).guarded else raise none

variable {ok}

@[simp] theorem guarded_ret (a : α) : (ret a : Prog E R X α).guarded ok = ret a := rfl

@[simp] theorem guarded_raise (x : X) : (raise x : Prog E R X α).guarded ok = raise (some x) := rfl

theorem guarded_act {e : E} (he : ok e = true) (k : R e → Prog E R X α) :
    (act e k).guarded ok = act e fun r => (k r).guarded ok := if_pos he

theorem guarded_refused {e : E} (he : ok e = false) (k : R e → Prog E R X α) :
    (act e k).guarded ok = raise none := if_neg (by rw [he]; exact nofun)

theorem guarded_bind (p : Prog E R X α) (f : α → Prog E R X β) :
    (p.bind f).guarded ok = (p.guarded ok).bind fun a => (f a).guarded ok := by
  induction p with
  | ret a => rfl
  | raise x => rfl
  | act e k ih =>
    cases he : ok e with
    | true =>
      rw [act_bind, guarded_act he, guarded_act he, act_bind]
      exact congrArg (act e) (funext ih)
    | false => rw [act_bind, guarded_refused he, guarded_refused he, raise_bind]

/-- Where everything is accepted, the program runs as it is. -/
theorem wp_guarded_of_only {S : Type} {T : S → (e : E) → R e → S → Prop} {C : E → S → Prop}
    {Q : Except (Option X) α → S → Prop} {p : Prog E R X α} {s : S}
    (hp : p.Only fun e => ok e = true)
    (h : p.wp T C (fun o s => Q (o.mapError some) s) s) : (p.guarded ok).wp T C Q s := by
  induction p generalizing s with
  | ret a => exact h
  | raise x => exact h
  | act e k ih =>
    rw [guarded_act hp.1]
    exact ⟨h.1, fun r s' hT => ih r (hp.2 r) (h.2 r s' hT)⟩

end ChatBackend.Prog
