import ChatBackend.Foundations.Guarantee

/-!
# A session that has the store for itself

The runs of a session on its own, with the logs that it commits: `Solo` is the relation, `solo_stmt`
and its siblings are the rules for the actions, and `eval_solo` computes a run.
-/

namespace ChatBackend.Store

variable {S : Type} {R : S → Type} {D O G M : Type} [Preorder G]
variable {st : Store S R D O G M} {X α : Type}

/-- A session that begins. -/
def Own.begin (g : G) (d : D) (m : M) : Own D O G M := ⟨g, d, [], m, []⟩

/-- The complete runs of a session that has the store for itself. -/
abbrev Solo (st : Store S R D O G M) (p : TxProg S R X α) (l : Own D O G M) (o : Except X α)
    (l' : Own D O G M) : Prop :=
  Prog.Runs (Protocol.act st) p l o l'

/-- Every such run ends in `Q`. -/
abbrev solo (st : Store S R D O G M) (Q : Except X α → Own D O G M → Prop) (p : TxProg S R X α)
    (l : Own D O G M) : Prop :=
  p.wp (Protocol.act st) (fun _ _ => True) Q l

variable {Q : Except X α → Own D O G M → Prop} {l : Own D O G M}

theorem solo_stmt {s : S} {k : R s → TxProg S R X α}
    (h : ∀ r ops gen mem, st.exec s l.gen l.mem (l.view st) r ops gen mem →
      solo st Q (k r) ⟨gen, l.db, l.log ++ ops, mem, l.done⟩) : solo st Q (.act (.stmt s) k) l := by
  refine ⟨trivial, ?_⟩
  rintro r _ ⟨ops, gen, mem, he, rfl⟩
  exact h r ops gen mem he

theorem solo_commit {k : Unit → TxProg S R X α}
    (h : solo st Q (k ()) ⟨l.gen, l.view st, [], l.mem, l.done ++ [l.log]⟩) :
    solo st Q (.act .commit k) l := by
  refine ⟨trivial, ?_⟩
  rintro ⟨⟩ _ rfl
  exact h

theorem solo_rollback {k : Unit → TxProg S R X α}
    (h : solo st Q (k ()) ⟨l.gen, l.db, [], l.mem, l.done⟩) :
    solo st Q (.act .rollback k) l := by
  refine ⟨trivial, ?_⟩
  rintro ⟨⟩ _ rfl
  exact h

theorem solo_bind {β : Type} {Q : Except X β → Own D O G M → Prop} {p : TxProg S R X α}
    {f : α → TxProg S R X β}
    (h : solo st (fun o l => match o with
      | .ok a => solo st Q (f a) l
      | .error x => Q (.error x) l) p l) : solo st Q (p.bind f) l := by
  rw [solo, Prog.wp_bind]
  refine Prog.wp_mono (fun o l' hq => ?_) h
  cases o with
  | ok a => exact hq
  | error x => exact hq

theorem solo_tryCatch {p : TxProg S R X α} {f : X → TxProg S R X α}
    (h : solo st (fun o l => match o with
      | .ok a => Q (.ok a) l
      | .error x => solo st Q (f x) l) p l) : solo st Q (p.tryCatch f) l := by
  rw [solo, Prog.wp_tryCatch]
  refine Prog.wp_mono (fun o l' hq => ?_) h
  cases o with
  | ok a => exact hq
  | error x => exact hq

/-- A body in a session: its log is committed when it returns, and dropped when it raises. -/
theorem solo_sessionScope {p : TxProg S R X α}
    (h : solo st (fun o l' => match o with
      | .ok a => Q (.ok a) ⟨l'.gen, l'.view st, [], l'.mem, l'.done ++ [l'.log]⟩
      | .error x => Q (.error x) ⟨l'.gen, l'.db, [], l'.mem, l'.done⟩) p l) :
    solo st Q (TxProg.sessionScope p) l := by
  refine solo_tryCatch (solo_bind (Prog.wp_mono (fun o l' hq => ?_) h))
  cases o with
  | ok a => exact solo_commit hq
  | error x => exact solo_rollback hq

/-! ## Computed runs -/

variable {Ω : Type}

/-- The actions of a session that has the store for itself, computed. -/
def Handler.solo (h : Handler st Ω) (l : Own D O G M × Ω) :
    (e : TxAct S) → TxAct.Resp R e × Own D O G M × Ω
  | .stmt s =>
    match h.answer l.2 s l.1.gen l.1.mem (l.1.view st) with
    | (r, ops, gen, mem, ω) => (r, ⟨gen, l.1.db, l.1.log ++ ops, mem, l.1.done⟩, ω)
  | .commit => ((), ⟨l.1.gen, l.1.view st, [], l.1.mem, l.1.done ++ [l.1.log]⟩, l.2)
  | .rollback => ((), ⟨l.1.gen, l.1.db, [], l.1.mem, l.1.done⟩, l.2)

theorem Handler.solo_act (h : Handler st Ω) (l : Own D O G M × Ω) (e : TxAct S) :
    Protocol.act st l.1 e (h.solo l e).1 (h.solo l e).2.1 := by
  cases e with
  | stmt s => exact ⟨_, _, _, h.ok l.2 s l.1.gen l.1.mem (l.1.view st), rfl⟩
  | commit => rfl
  | rollback => rfl

/-- What `Prog.eval` computes with a handler is a run. -/
theorem eval_solo (h : Handler st Ω) (p : TxProg S R X α) (l : Own D O G M × Ω) :
    Solo st p l.1 (p.eval h.solo l).1 (p.eval h.solo l).2.1 :=
  Prog.eval_runs Prod.fst h.solo h.solo_act p l

/-- What the statements keep of the sequences, a computed run keeps. -/
theorem eval_gen {Φ : G → Prop} {h : Handler st Ω}
    (hΦ : ∀ ω s g m d, Φ g → Φ (h.answer ω s g m d).2.2.1) (p : TxProg S R X α)
    (l : Own D O G M × Ω) (hl : Φ l.1.gen) : Φ (p.eval h.solo l).2.1.gen := by
  induction p generalizing l with
  | ret a => exact hl
  | raise x => exact hl
  | act e k ih =>
    refine ih _ _ ?_
    cases e with
    | stmt s => exact hΦ _ _ _ _ _ hl
    | commit => exact hl
    | rollback => exact hl

end ChatBackend.Store
