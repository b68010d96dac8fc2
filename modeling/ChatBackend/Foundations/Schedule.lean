import ChatBackend.Foundations.ReadCommitted

/-!
# Playing a schedule

A run of a pool, computed: a handler answers the statements, from what is left of a script `Ω`
where the store leaves a choice, and a list of sessions says who moves.

* `Pool.play_reaches`: the pool that is computed is reached.
* `eval_runs_step`: the same for a session that has the store for itself.
-/

namespace ChatBackend.Store

variable {S : Type} {R : S → Type} {D O G M : Type} [Preorder G]

/-- Answers to the statements of a store, computed. -/
structure Handler (st : Store S R D O G M) (Ω : Type) where
  /-- The answer, the writes, the sequences, the memory, and what is left of the script. -/
  answer : Ω → (s : S) → G → M → D → R s × List O × G × M × Ω
  ok (ω : Ω) (s : S) (g : G) (m : M) (d : D) :
    st.exec s g m d (answer ω s g m d).1 (answer ω s g m d).2.1 (answer ω s g m d).2.2.1
      (answer ω s g m d).2.2.2.1
  /-- A sufficient test that two logs can be open together. -/
  compat : List O → List O → Bool
  compat_ok {l l' : List O} : compat l l' = true → st.compat l l'

variable {st : Store S R D O G M} {Ω : Type}

/-! ## One session -/

/-- The actions of a session that has the store for itself. -/
def Handler.act (h : Handler st Ω) (w : World D G M × Ω) :
    (e : TxAct S) → TxAct.Resp R e × World D G M × Ω
  | .stmt s =>
    match h.answer w.2 s w.1.gen w.1.mem w.1.work with
    | (r, ops, gen, mem, ω) => (r, ⟨w.1.db, st.view ops w.1.work, gen, mem⟩, ω)
  | .commit => ((), ⟨w.1.work, w.1.work, w.1.gen, w.1.mem⟩, w.2)
  | .rollback => ((), ⟨w.1.db, w.1.db, w.1.gen, w.1.mem⟩, w.2)

theorem Handler.act_step (h : Handler st Ω) (w : World D G M × Ω) (e : TxAct S) :
    st.step w.1 e (h.act w e).1 (h.act w e).2.1 := by
  cases e with
  | stmt s => exact ⟨_, _, _, h.ok w.2 s w.1.gen w.1.mem w.1.work, rfl⟩
  | commit => rfl
  | rollback => rfl

/-- What `Prog.eval` computes with a handler is a run. -/
theorem eval_runs_step {X α : Type} (h : Handler st Ω) (p : TxProg S R X α)
    (w : World D G M × Ω) :
    Prog.Runs st.step p w.1 (p.eval h.act w).1 (p.eval h.act w).2.1 :=
  Prog.eval_runs Prod.fst h.act h.act_step p w

theorem trace_reaches_step {X α : Type} (h : Handler st Ω) (p : TxProg S R X α)
    (w : World D G M × Ω) {e : TxAct S} {w' : World D G M × Ω} (hmem : (e, w') ∈ p.trace h.act w) :
    Prog.Reaches st.step p w.1 e w'.1 :=
  Prog.trace_reaches Prod.fst h.act h.act_step p w hmem

/-! ## A pool -/

namespace Pool

variable {ι X A : Type} [DecidableEq ι]

/-- The next step of session `i`, none when it has no next action or has to wait. -/
def tick (h : Handler st Ω) (ids : List ι) (i : ι) (P : Pool ι S R D O G M X A) (ω : Ω) :
    Option (Pool ι S R D O G M X A × Ω) :=
  match (P.thr i).prog with
  | some (.act (.stmt s) k) =>
    match h.answer ω s P.gen (P.thr i).mem (P.view st i) with
    | (r, ops, gen, mem, ω') =>
      if ids.all fun j => j = i || h.compat ((P.thr i).log ++ ops) (P.thr j).log then
        some (⟨P.db, gen, Function.update P.thr i ⟨some (k r), (P.thr i).log ++ ops, mem⟩, P.hist⟩,
          ω')
      else none
  | some (.act .commit k) =>
    some (⟨P.view st i, P.gen, Function.update P.thr i ⟨some (k ()), [], (P.thr i).mem⟩,
      P.hist ++ [(i, (P.thr i).log)]⟩, ω)
  | some (.act .rollback k) =>
    some (⟨P.db, P.gen, Function.update P.thr i ⟨some (k ()), [], (P.thr i).mem⟩, P.hist⟩, ω)
  | _ => none

theorem tick_step {h : Handler st Ω} {ids : List ι} (hids : ∀ j, j ∈ ids) {i : ι}
    {P P' : Pool ι S R D O G M X A} {ω ω' : Ω} (ht : tick h ids i P ω = some (P', ω')) :
    Step st i P P' := by
  unfold tick at ht
  split at ht
  · rename_i s k hp
    split at ht
    rename_i r ops gen mem ω₁ ha
    have hok := h.ok ω s P.gen (P.thr i).mem (P.view st i)
    rw [ha] at hok
    split at ht
    · rename_i hall
      obtain ⟨rfl, rfl⟩ := Prod.mk.inj (Option.some.inj ht)
      refine .act hp (.stmt hok fun j hj => ?_)
      have := List.all_eq_true.1 hall j (hids j)
      simp only [hj, decide_false, Bool.false_or] at this
      exact h.compat_ok this
    · cases ht
  · rename_i k hp
    obtain ⟨rfl, rfl⟩ := Prod.mk.inj (Option.some.inj ht)
    exact .act hp .commit
  · rename_i k hp
    obtain ⟨rfl, rfl⟩ := Prod.mk.inj (Option.some.inj ht)
    exact .act hp .rollback
  · cases ht

/-- The sessions of a small pool are numerals. -/
instance : NeZero 2 := ⟨two_ne_zero⟩

instance : NeZero 3 := ⟨three_ne_zero⟩

/-- The steps of a schedule, as far as they can be taken. -/
def play (h : Handler st Ω) (ids : List ι) :
    List ι → Pool ι S R D O G M X A → Ω → Option (Pool ι S R D O G M X A × Ω)
  | [], P, ω => some (P, ω)
  | i :: sched, P, ω =>
    match tick h ids i P ω with
    | some (P', ω') => play h ids sched P' ω'
    | none => none

theorem play_reaches {h : Handler st Ω} {ids : List ι} (hids : ∀ j, j ∈ ids) {sched : List ι}
    {P P' : Pool ι S R D O G M X A} {ω ω' : Ω} (hp : play h ids sched P ω = some (P', ω')) :
    P.Reaches st P' := by
  induction sched generalizing P ω with
  | nil =>
    obtain ⟨rfl, rfl⟩ := Prod.mk.inj (Option.some.inj hp)
    exact .refl
  | cons i sched ih =>
    unfold play at hp
    split at hp
    · rename_i P₁ ω₁ ht
      exact .head ⟨i, tick_step hids ht⟩ (ih hp)
    · cases hp

/-- A test passed by the pool that a schedule computes is passed by a pool that is reached. -/
theorem exists_of_play {h : Handler st Ω} {ids : List ι} (hids : ∀ j, j ∈ ids) {sched : List ι}
    {P : Pool ι S R D O G M X A} {ω : Ω} {test : Pool ι S R D O G M X A → Bool}
    (hp : (play h ids sched P ω).any (fun r => test r.1) = true) :
    ∃ P', P.Reaches st P' ∧ test P' = true := by
  obtain ⟨⟨P', ω'⟩, hr, ht⟩ := (Option.any_eq_true ..).1 hp
  exact ⟨P', play_reaches hids hr, ht⟩

end Pool

end ChatBackend.Store
