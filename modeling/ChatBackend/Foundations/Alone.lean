import ChatBackend.Foundations.Schedule

/-!
# What a session does whatever the others do

Some facts about a session concern its open transaction and its memory only, and need no promise of the
others: between two of its actions the database may have become anything. `Pool.Acts` says so of all
sessions of a pool, and `ReachesWhen.keeps` concludes what the committed database is like in a run whose
steps meet a condition.
-/

namespace ChatBackend.Store

variable {ι S : Type} {R : S → Type} {D O G M : Type} [Preorder G]

/-- What a session holds: the log of its open transaction, and its memory. -/
structure Held (O M : Type) where
  log : List O
  mem : M

/-- An action of a session, on any database. -/
inductive AloneStep (st : Store S R D O G M) :
    Held O M → (e : TxAct S) → TxAct.Resp R e → Held O M → Prop
  | stmt {l : Held O M} {s : S} {r : R s} {g gen : G} {d : D} {ops : List O} {mem : M}
      (he : st.exec s g l.mem (st.view l.log d) r ops gen mem) :
      AloneStep st l (.stmt s) r ⟨l.log ++ ops, mem⟩
  | commit {l : Held O M} : AloneStep st l .commit () ⟨[], l.mem⟩
  | rollback {l : Held O M} : AloneStep st l .rollback () ⟨[], l.mem⟩

/-- What a statement has been answered. -/
theorem AloneStep.exec {st : Store S R D O G M} {l l' : Held O M} {s : S} {r : R s}
    (h : AloneStep st l (.stmt s) r l') :
    ∃ g d ops gen, st.exec s g l.mem (st.view l.log d) r ops gen l'.mem ∧ l'.log = l.log ++ ops := by
  cases h with
  | stmt hx => exact ⟨_, _, _, _, hx, rfl⟩

namespace Pool

variable {X A : Type} [DecidableEq ι] {st : Store S R D O G M}

/-- What session `i` holds. -/
def held (P : Pool ι S R D O G M X A) (i : ι) : Held O M := ⟨(P.thr i).log, (P.thr i).mem⟩

/-- Every action of every session satisfies `C`, whatever the others do. -/
def Acts (st : Store S R D O G M) (C : TxAct S → Held O M → Prop) (P : Pool ι S R D O G M X A) : Prop :=
  ∀ i p, (P.thr i).prog = some p → p.wp (AloneStep st) C (fun _ _ => True) (P.held i)

/-- A step of session `i`; its actions meet a condition on what it holds and on the database. -/
inductive StepWhen (st : Store S R D O G M) (ok : Held O M → D → TxAct S → Prop) (i : ι) :
    Pool ι S R D O G M X A → Pool ι S R D O G M X A → Prop
  | act {P P' : Pool ι S R D O G M X A} {e : TxAct S} {k : TxAct.Resp R e → TxProg S R X A}
      {r : TxAct.Resp R e} (hp : (P.thr i).prog = some (.act e k)) (hok : ok (P.held i) P.db e)
      (h : Perform st i (some (k r)) P e r P') : StepWhen st ok i P P'
  | die {P : Pool ι S R D O G M X A} {p : TxProg S R X A} (hp : (P.thr i).prog = some p) :
      StepWhen st ok i P ⟨P.db, P.gen, Function.update P.thr i ⟨none, [], (P.thr i).mem⟩, P.hist⟩

/-- The pools that a pool can become through steps that meet the condition. -/
def ReachesWhen (st : Store S R D O G M) (ok : Held O M → D → TxAct S → Prop) :
    Pool ι S R D O G M X A → Pool ι S R D O G M X A → Prop :=
  Relation.ReflTransGen fun P P' => ∃ i, StepWhen st ok i P P'

variable {C : TxAct S → Held O M → Prop} {ok : Held O M → D → TxAct S → Prop}
  {P P' : Pool ι S R D O G M X A} {i : ι}

/-- The sessions after session `i` has changed. -/
theorem Acts.update {p : Option (TxProg S R X A)} {log : List O} {mem : M} {d : D} {g : G}
    {hist : List (ι × List O)} (hP : P.Acts st C)
    (h : ∀ q, p = some q → q.wp (AloneStep st) C (fun _ _ => True) ⟨log, mem⟩) :
    Acts st C (⟨d, g, Function.update P.thr i ⟨p, log, mem⟩, hist⟩ : Pool ι S R D O G M X A) := by
  intro j q hq
  by_cases hj : j = i
  · subst hj
    simp only [held, Function.update_self] at hq ⊢
    exact h q hq
  · simp only [held, Function.update_of_ne hj] at hq ⊢
    exact hP j q hq

/-- The sessions after session `i` has performed an action. -/
theorem Acts.perform {e : TxAct S} {k : TxAct.Resp R e → TxProg S R X A} {r : TxAct.Resp R e}
    (hP : P.Acts st C) (hp : (P.thr i).prog = some (.act e k)) (h : Perform st i (some (k r)) P e r P') :
    P'.Acts st C := by
  have hown := (hP i _ hp).2
  cases h with
  | stmt he hc => exact hP.update fun q hq => Option.some.inj hq ▸ hown _ _ (.stmt he)
  | commit => exact hP.update fun q hq => Option.some.inj hq ▸ hown _ _ .commit
  | rollback => exact hP.update fun q hq => Option.some.inj hq ▸ hown _ _ .rollback

/-- **The run rule**: what every commit keeps that meets the condition, a run of such steps keeps. -/
theorem ReachesWhen.keeps {inv : D → Prop} (h : P.ReachesWhen st ok P') (hP : P.Acts st C)
    (hinv : ∀ l d, inv d → C .commit l → ok l d .commit → inv (st.view l.log d)) (hd : inv P.db) :
    inv P'.db ∧ P'.Acts st C := by
  induction h with
  | refl => exact ⟨hd, hP⟩
  | @tail P₁ P₂ _ hs ih =>
    obtain ⟨hd₁, hP₁⟩ := ih
    obtain ⟨i, hs⟩ := hs
    cases hs with
    | @act e k r _ hp hok h =>
      refine ⟨?_, hP₁.perform hp h⟩
      cases h with
      | stmt he hc => exact hd₁
      | commit => exact hinv _ _ hd₁ (hP₁ i _ hp).1 hok
      | rollback => exact hd₁
    | die hp => exact ⟨hd₁, hP₁.update nofun⟩

/-! ## Playing a schedule -/

section Play

variable {Ω : Type}

/-- The next action of session `i` meets the condition. -/
def meets (ok : Held O M → D → TxAct S → Bool) (i : ι) (P : Pool ι S R D O G M X A) : Bool :=
  match (P.thr i).prog with
  | some (.act e _) => ok (P.held i) P.db e
  | _ => false

/-- The steps of a schedule, as far as they can be taken and meet the condition. -/
def playWhen (h : Handler st Ω) (ok : Held O M → D → TxAct S → Bool) (ids : List ι) :
    List ι → Pool ι S R D O G M X A → Ω → Option (Pool ι S R D O G M X A × Ω)
  | [], P, ω => some (P, ω)
  | i :: sched, P, ω =>
    if meets ok i P then
      match tick h ids i P ω with
      | some (P', ω') => playWhen h ok ids sched P' ω'
      | none => none
    else none

theorem Step.stepWhen {ok : Held O M → D → TxAct S → Bool} {i : ι} (h : Step st i P P')
    (hok : meets ok i P = true) : StepWhen st (fun l d e => ok l d e = true) i P P' := by
  cases h with
  | act hp h =>
    rw [meets, hp] at hok
    exact .act hp hok h
  | die hp => exact .die hp

/-- A test passed by the pool that a schedule computes is passed by a pool that is reached. -/
theorem exists_of_playWhen {h : Handler st Ω} {ok : Held O M → D → TxAct S → Bool} {ids : List ι}
    (hids : ∀ j, j ∈ ids) {sched : List ι} {ω : Ω} {test : Pool ι S R D O G M X A → Bool}
    (hp : (playWhen h ok ids sched P ω).any (fun r => test r.1) = true) :
    ∃ P', P.ReachesWhen st (fun l d e => ok l d e = true) P' ∧ test P' = true := by
  induction sched generalizing P ω with
  | nil => exact ⟨P, .refl, hp⟩
  | cons i sched ih =>
    unfold playWhen at hp
    split at hp
    · rename_i hmeets
      split at hp
      · rename_i P₁ ω₁ ht
        obtain ⟨P', hr, htest⟩ := ih hp
        exact ⟨P', .head ⟨i, (tick_step hids ht).stepWhen hmeets⟩ hr, htest⟩
      · cases hp
    · cases hp

end Play

end Pool

end ChatBackend.Store
