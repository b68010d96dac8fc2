import ChatBackend.Foundations.Prog
import Mathlib

/-!
# Read-committed transactions

A store holds a committed database. A transaction does not write to it: it keeps a log of the
writes of its statements, and a statement reads the *view*, the committed database with the
transaction's own log applied. `commit` applies the log, `rollback` drops it. Sequence values and
the memory of the process that runs the transaction are not transactional: a rollback leaves them.

* `Store` is such a database: the writes, what a statement answers and logs (`exec`), and which
  logs may be open side by side (`compat`: row locks and unique keys). A statement that would
  break this waits.
* `Store.step` is the semantics of one session that has the store for itself.
* `Pool.Step` interleaves the sessions of a pool, one action at a time; a statement takes its own
  snapshot, as under READ COMMITTED, and a session may die before any action.
* `Store.rgStep` is the semantics of one session among others, of which it only knows that what
  they commit keeps an invariant `J` and is compatible with its own log; `Store.rg` is the weakest
  precondition for it, with the rules `rg_stmt`, `rg_commit`, `rg_rollback`, `rg_bind` and
  `rg_tryCatch`. `rg_sound` says that sessions that keep `J` at their commits, each in this sense,
  keep it together, and `rg_during` what holds when one of them has run a program to its end.
-/

namespace ChatBackend

/-- What a session does: a statement, or the end of the transaction. -/
inductive TxAct (S : Type) : Type
  | stmt (s : S)
  | commit
  | rollback

/-- The answers. -/
@[reducible] def TxAct.Resp {S : Type} (R : S → Type) : TxAct S → Type
  | .stmt s => R s
  | .commit => Unit
  | .rollback => Unit

/-- Programs of statements `S`. -/
abbrev TxProg (S : Type) (R : S → Type) (X α : Type) : Type := Prog (TxAct S) (TxAct.Resp R) X α

namespace TxProg

variable {S : Type} {R : S → Type} {X α : Type}

/-- Run a statement. -/
def stmt (s : S) : TxProg S R X (R s) := Prog.act (TxAct.stmt s) Prog.ret

/-- Commit the open transaction. -/
def commit : TxProg S R X Unit := Prog.act TxAct.commit Prog.ret

/-- Roll the open transaction back. -/
def rollback : TxProg S R X Unit := Prog.act TxAct.rollback Prog.ret

/-- Run a body in a session: commit when it returns, roll back and raise again when it raises. -/
def sessionScope (p : TxProg S R X α) : TxProg S R X α :=
  Prog.tryCatch (p.bind fun a => commit.bind fun _ => .ret a) fun x => rollback.bind fun _ => .raise x

end TxProg

/-- A database with statements `S`, writes `O`, sequences `G`, for processes with memory `M`. -/
structure Store (S : Type) (R : S → Type) (D O G M : Type) [Preorder G] where
  /-- The effect of a write. -/
  apply : O → D → D
  /-- `exec s g m d r ops g' m'`: on the view `d` the statement may answer `r`, write `ops` and
  leave the sequences and the memory at `g'` and `m'`. -/
  exec : (s : S) → G → M → D → R s → List O → G → M → Prop
  /-- Two logs can be open at the same time. A statement whose writes are not compatible with the
  open log of another session waits for it to end. -/
  compat : List O → List O → Prop
  /-- Sequences only advance. -/
  gen_le {s : S} {g g' : G} {m m' : M} {d : D} {r : R s} {ops : List O} :
    exec s g m d r ops g' m' → g ≤ g'
  compat_symm {l l' : List O} : compat l l' → compat l' l
  compat_nil (l : List O) : compat [] l

namespace Store

variable {S : Type} {R : S → Type} {D O G M : Type} [Preorder G] (st : Store S R D O G M)

/-- The database as a session with this log sees it. -/
def view (log : List O) (d : D) : D := log.foldl (fun d o => st.apply o d) d

@[simp] theorem view_nil (d : D) : st.view [] d = d := rfl

@[simp] theorem view_cons (o : O) (log : List O) (d : D) :
    st.view (o :: log) d = st.view log (st.apply o d) := rfl

theorem view_append (l₁ l₂ : List O) (d : D) : st.view (l₁ ++ l₂) d = st.view l₂ (st.view l₁ d) :=
  List.foldl_append ..

/-! ## One session -/

/-- The committed database, the view of the open transaction, the sequences and the memory. -/
@[ext] structure World (D G M : Type) where
  db : D
  work : D
  gen : G
  mem : M

/-- The steps of a session that has the store for itself. -/
def step : World D G M → (e : TxAct S) → TxAct.Resp R e → World D G M → Prop
  | w, .stmt s, r, w' => ∃ ops gen mem, st.exec s w.gen w.mem w.work r ops gen mem ∧
      w' = ⟨w.db, st.view ops w.work, gen, mem⟩
  | w, .commit, _, w' => w' = ⟨w.work, w.work, w.gen, w.mem⟩
  | w, .rollback, _, w' => w' = ⟨w.db, w.db, w.gen, w.mem⟩

section Wp

variable {X α : Type} {st}
variable {C : TxAct S → World D G M → Prop} {Q : Except X α → World D G M → Prop}

theorem wp_stmt (s : S) (k : R s → TxProg S R X α) (w : World D G M) :
    Prog.wp st.step C Q (.act (.stmt s) k) w ↔ C (.stmt s) w ∧
      ∀ r ops gen mem, st.exec s w.gen w.mem w.work r ops gen mem →
        Prog.wp st.step C Q (k r) ⟨w.db, st.view ops w.work, gen, mem⟩ := by
  rw [Prog.wp_act]
  refine and_congr_right fun _ => ⟨fun h r ops gen mem he => h r _ ⟨ops, gen, mem, he, rfl⟩, ?_⟩
  rintro h r _ ⟨ops, gen, mem, he, rfl⟩
  exact h r ops gen mem he

@[simp] theorem wp_commit (k : Unit → TxProg S R X α) (w : World D G M) :
    Prog.wp st.step C Q (.act .commit k) w ↔ C .commit w ∧
      Prog.wp st.step C Q (k ()) ⟨w.work, w.work, w.gen, w.mem⟩ := by
  rw [Prog.wp_act]
  exact and_congr_right fun _ => ⟨fun h => h () _ rfl, by rintro h ⟨⟩ _ rfl; exact h⟩

@[simp] theorem wp_rollback (k : Unit → TxProg S R X α) (w : World D G M) :
    Prog.wp st.step C Q (.act .rollback k) w ↔ C .rollback w ∧
      Prog.wp st.step C Q (k ()) ⟨w.db, w.db, w.gen, w.mem⟩ := by
  rw [Prog.wp_act]
  exact and_congr_right fun _ => ⟨fun h => h () _ rfl, by rintro h ⟨⟩ _ rfl; exact h⟩

/-- What has to hold after the body of a session: it commits, or rolls back and raises again. -/
def scopePost (C : TxAct S → World D G M → Prop) (Q : Except X α → World D G M → Prop) :
    Except X α → World D G M → Prop
  | .ok a, w => C .commit w ∧ Q (.ok a) ⟨w.work, w.work, w.gen, w.mem⟩
  | .error x, w => C .rollback w ∧ Q (.error x) ⟨w.db, w.db, w.gen, w.mem⟩

theorem wp_sessionScope (p : TxProg S R X α) (w : World D G M) :
    (TxProg.sessionScope p).wp st.step C Q w ↔ p.wp st.step C (scopePost C Q) w := by
  rw [TxProg.sessionScope, Prog.wp_tryCatch, Prog.wp_bind]
  have hpost : Prog.bindPost st.step C (Prog.catchPost st.step C Q fun x : X =>
        TxProg.rollback.bind fun _ => Prog.raise x)
      (fun a : α => TxProg.commit.bind fun _ => Prog.ret a) = scopePost C Q := by
    funext o w
    cases o with
    | ok a =>
      simp only [Prog.bindPost, TxProg.commit, Prog.act_bind, Prog.ret_bind, wp_commit, scopePost,
        Prog.wp_ret, Prog.catchPost]
    | error x =>
      simp only [Prog.bindPost, TxProg.rollback, Prog.act_bind, Prog.ret_bind, wp_rollback,
        scopePost, Prog.wp_raise, Prog.catchPost]
  rw [hpost]

end Wp

/-! ## A pool of sessions -/

/-- A session: what is left of its program (`none` when it has died), the log of its open
transaction and its memory. -/
structure Thread (S : Type) (R : S → Type) (O M X A : Type) where
  prog : Option (TxProg S R X A)
  log : List O
  mem : M

/-- The committed database, the sequences, the sessions, and the commits made so far. -/
structure Pool (ι S : Type) (R : S → Type) (D O G M X A : Type) where
  db : D
  gen : G
  thr : ι → Thread S R O M X A
  hist : List (ι × List O)

namespace Pool

variable {ι X A : Type} [DecidableEq ι]

/-- What session `i` reads: the committed database and its own writes. -/
def view (st : Store S R D O G M) (P : Pool ι S R D O G M X A) (i : ι) : D :=
  st.view (P.thr i).log P.db

/-- Session `i` performs an action, is answered `r` and goes on with `p`. -/
inductive Perform (st : Store S R D O G M) (i : ι) (p : Option (TxProg S R X A)) :
    Pool ι S R D O G M X A → (e : TxAct S) → TxAct.Resp R e → Pool ι S R D O G M X A → Prop
  | stmt {P : Pool ι S R D O G M X A} {s : S} {r : R s} {ops : List O} {gen : G} {mem : M}
      (he : st.exec s P.gen (P.thr i).mem (P.view st i) r ops gen mem)
      (hc : ∀ j, j ≠ i → st.compat ((P.thr i).log ++ ops) (P.thr j).log) :
      Perform st i p P (.stmt s) r
        ⟨P.db, gen, Function.update P.thr i ⟨p, (P.thr i).log ++ ops, mem⟩, P.hist⟩
  | commit {P : Pool ι S R D O G M X A} :
      Perform st i p P .commit ()
        ⟨P.view st i, P.gen, Function.update P.thr i ⟨p, [], (P.thr i).mem⟩,
          P.hist ++ [(i, (P.thr i).log)]⟩
  | rollback {P : Pool ι S R D O G M X A} :
      Perform st i p P .rollback ()
        ⟨P.db, P.gen, Function.update P.thr i ⟨p, [], (P.thr i).mem⟩, P.hist⟩

/-- One step of session `i`: the next action of its program, or its death, which drops the open
transaction. -/
inductive Step (st : Store S R D O G M) (i : ι) :
    Pool ι S R D O G M X A → Pool ι S R D O G M X A → Prop
  | act {P P' : Pool ι S R D O G M X A} {e : TxAct S} {k : TxAct.Resp R e → TxProg S R X A}
      {r : TxAct.Resp R e} (hp : (P.thr i).prog = some (.act e k))
      (h : Perform st i (some (k r)) P e r P') : Step st i P P'
  | die {P : Pool ι S R D O G M X A} {p : TxProg S R X A} (hp : (P.thr i).prog = some p) :
      Step st i P ⟨P.db, P.gen, Function.update P.thr i ⟨none, [], (P.thr i).mem⟩, P.hist⟩

/-- The pools that a pool can become. -/
def Reaches (st : Store S R D O G M) :
    Pool ι S R D O G M X A → Pool ι S R D O G M X A → Prop :=
  Relation.ReflTransGen fun P P' => ∃ i, Step st i P P'

/-- `During st i p P acts o P'`: while session `i` runs the program `p`, performing `acts` (each
with the view it was performed on) and ending with `o`, the pool goes from `P` to `P'`; the other
sessions take any steps in between. -/
inductive During (st : Store S R D O G M) (i : ι) {α : Type} : TxProg S R X α →
    Pool ι S R D O G M X A → List (TxAct S × D) → Except X α → Pool ι S R D O G M X A → Prop
  | ret (a : α) (P : Pool ι S R D O G M X A) : During st i (.ret a) P [] (.ok a) P
  | raise (x : X) (P : Pool ι S R D O G M X A) : During st i (.raise x) P [] (.error x) P
  | own {e : TxAct S} {k : TxAct.Resp R e → TxProg S R X α} {r : TxAct.Resp R e}
      {P P₁ P' : Pool ι S R D O G M X A} {acts : List (TxAct S × D)} {o : Except X α}
      (h : Perform st i (P.thr i).prog P e r P₁) (hk : During st i (k r) P₁ acts o P') :
      During st i (.act e k) P ((e, P.view st i) :: acts) o P'
  | other {p : TxProg S R X α} {j : ι} {P P₁ P' : Pool ι S R D O G M X A}
      {acts : List (TxAct S × D)} {o : Except X α} (hj : j ≠ i) (h : Step st j P P₁)
      (hk : During st i p P₁ acts o P') : During st i p P acts o P'

/-- A statement, not an end of the transaction. -/
def IsStmt (e : TxAct S) : Prop := ∃ s, e = .stmt s

/-- The commits `c` of sessions other than `i` lead from `P` to `P'`. -/
def Others (st : Store S R D O G M) (i : ι) (P P' : Pool ι S R D O G M X A) : Prop :=
  ∃ c : List (ι × List O), P'.hist = P.hist ++ c ∧ (∀ x ∈ c, x.1 ≠ i) ∧
    P'.db = st.view (c.flatMap Prod.snd) P.db

omit [DecidableEq ι] in
theorem Others.trans {st : Store S R D O G M} {i : ι} {P P₁ P' : Pool ι S R D O G M X A}
    (h : Others st i P P₁) (h' : Others st i P₁ P') : Others st i P P' := by
  obtain ⟨c, hh, hi, hd⟩ := h
  obtain ⟨c', hh', hi', hd'⟩ := h'
  refine ⟨c ++ c', by rw [hh', hh, List.append_assoc], fun x hx => ?_, ?_⟩
  · exact (List.mem_append.1 hx).elim (hi x) (hi' x)
  · rw [hd', hd, List.flatMap_append, st.view_append]

omit [DecidableEq ι] in
theorem Others.of_eq {st : Store S R D O G M} {i : ι} {P P' : Pool ι S R D O G M X A}
    (hh : P'.hist = P.hist) (hd : P'.db = P.db) : Others st i P P' :=
  ⟨[], by simp [hh], by simp, by simp [hd]⟩

/-- A step of another session commits at most that session's log. -/
theorem Step.others {st : Store S R D O G M} {i j : ι} (hj : j ≠ i)
    {P P' : Pool ι S R D O G M X A} (h : Step st j P P') : Others st i P P' := by
  cases h with
  | act hp h =>
    cases h with
    | stmt => exact .of_eq rfl rfl
    | commit => exact ⟨[(j, (P.thr j).log)], rfl, by simpa using hj, by simp [view]⟩
    | rollback => exact .of_eq rfl rfl
  | die hp => exact .of_eq rfl rfl

/-- **A program of statements commits nothing**: what is committed while it runs, the others have
committed. -/
theorem During.others {st : Store S R D O G M} {i : ι} {α : Type} {p : TxProg S R X α}
    {P P' : Pool ι S R D O G M X A} {acts : List (TxAct S × D)} {o : Except X α}
    (h : During st i p P acts o P') (hp : p.Only IsStmt) : Others st i P P' := by
  induction h with
  | ret a P => exact .of_eq rfl rfl
  | raise x P => exact .of_eq rfl rfl
  | @own e k r P P₁ P' acts o h hk ih =>
    obtain ⟨⟨s, rfl⟩, hk'⟩ := hp
    cases h with
    | stmt => exact .trans (.of_eq rfl rfl) (ih (hk' _))
  | other hj h hk ih => exact (h.others hj).trans (ih hp)

end Pool

/-! ## One session among others -/

section RelyGuarantee

/-- What a session knows: the sequences, the committed database, its own log and memory, and
what it has performed so far, with the views. -/
structure Local (S D O G M : Type) where
  gen : G
  db : D
  log : List O
  mem : M
  acts : List (TxAct S × D)

/-- The database as the session sees it. -/
def Local.view (st : Store S R D O G M) (l : Local S D O G M) : D := st.view l.log l.db

/-- What another session can do to this one: advance the sequences, or commit a log that can be
open beside its own and that keeps `J`. -/
inductive Env (st : Store S R D O G M) (J : G → D → Prop) :
    Local S D O G M → Local S D O G M → Prop
  | gen {l : Local S D O G M} {g : G} (h : l.gen ≤ g) : Env st J l ⟨g, l.db, l.log, l.mem, l.acts⟩
  | commit {l : Local S D O G M} {log : List O} (hc : st.compat l.log log)
      (hJ : J l.gen (st.view log l.db)) :
      Env st J l ⟨l.gen, st.view log l.db, l.log, l.mem, l.acts⟩

/-- Any number of steps of the other sessions. -/
def Envs (st : Store S R D O G M) (J : G → D → Prop) :
    Local S D O G M → Local S D O G M → Prop :=
  Relation.ReflTransGen (Env st J)

/-- The session's own action, on the state it then finds. -/
def ownStep (st : Store S R D O G M) :
    Local S D O G M → (e : TxAct S) → TxAct.Resp R e → Local S D O G M → Prop
  | l, .stmt s, r, l' => ∃ ops gen mem, st.exec s l.gen l.mem (l.view st) r ops gen mem ∧
      l' = ⟨gen, l.db, l.log ++ ops, mem, l.acts ++ [(.stmt s, l.view st)]⟩
  | l, .commit, _, l' => l' = ⟨l.gen, l.view st, [], l.mem, l.acts ++ [(.commit, l.view st)]⟩
  | l, .rollback, _, l' => l' = ⟨l.gen, l.db, [], l.mem, l.acts ++ [(.rollback, l.view st)]⟩

/-- The steps of a session among others: some steps of the others, then its own action. -/
def rgStep (st : Store S R D O G M) (J : G → D → Prop) (l : Local S D O G M) (e : TxAct S)
    (r : TxAct.Resp R e) (l' : Local S D O G M) : Prop :=
  ∃ l₁, Envs st J l l₁ ∧ J l₁.gen l₁.db ∧ st.ownStep l₁ e r l'

/-- What a session owes the others: whatever they have done by then, its commit keeps `J`. -/
def CommitOk (st : Store S R D O G M) (J : G → D → Prop) (e : TxAct S) (l : Local S D O G M) :
    Prop :=
  e = .commit → ∀ l₁, Envs st J l l₁ → J l₁.gen l₁.db → J l₁.gen (l₁.view st)

/-- Every run of `p` among sessions that keep `J` keeps `J` itself and ends in `Q`. -/
def rg (st : Store S R D O G M) (J : G → D → Prop) {X α : Type}
    (Q : Except X α → Local S D O G M → Prop) (p : TxProg S R X α) (l : Local S D O G M) : Prop :=
  p.wp (st.rgStep J) (st.CommitOk J) (fun o l => ∀ l', Envs st J l l' → Q o l') l

/-! ### Rules -/

section Rules

variable {st : Store S R D O G M} {J : G → D → Prop} {X α β : Type}
variable {Q Q' : Except X α → Local S D O G M → Prop}

/-- A property of a session's state that the other sessions cannot break. -/
def Stable (st : Store S R D O G M) (J : G → D → Prop) (A : Local S D O G M → Prop) : Prop :=
  ∀ l l', A l → Envs st J l l' → A l'

/-- `rg` cannot be broken by the other sessions. -/
theorem rg_stable (p : TxProg S R X α) : Stable st J (st.rg J Q p) := by
  intro l l' h he
  cases p with
  | ret a => exact fun l'' he' => h _ (he.trans he')
  | raise x => exact fun l'' he' => h _ (he.trans he')
  | act e k =>
    refine ⟨fun hc l₁ h₁ => h.1 hc l₁ (he.trans h₁), ?_⟩
    rintro r l'' ⟨l₁, h₁, hJ, ho⟩
    exact h.2 r l'' ⟨l₁, he.trans h₁, hJ, ho⟩

theorem rg_ret {a : α} {l : Local S D O G M} :
    st.rg J Q (.ret a) l ↔ ∀ l', Envs st J l l' → Q (.ok a) l' := Iff.rfl

theorem rg_raise {x : X} {l : Local S D O G M} :
    st.rg J Q (.raise x) l ↔ ∀ l', Envs st J l l' → Q (.error x) l' := Iff.rfl

/-- The rule for a statement: it runs on a state that the others have brought about. -/
theorem rg_stmt {s : S} {k : R s → TxProg S R X α} {l : Local S D O G M}
    (h : ∀ l₁, Envs st J l l₁ → J l₁.gen l₁.db → ∀ r ops gen mem,
      st.exec s l₁.gen l₁.mem (l₁.view st) r ops gen mem →
      st.rg J Q (k r) ⟨gen, l₁.db, l₁.log ++ ops, mem, l₁.acts ++ [(.stmt s, l₁.view st)]⟩) :
    st.rg J Q (.act (.stmt s) k) l := by
  refine ⟨nofun, ?_⟩
  rintro r l' ⟨l₁, he, hJ, ops, gen, mem, hx, rfl⟩
  exact h l₁ he hJ r ops gen mem hx

/-- The rule for a commit: the session has to keep `J`. -/
theorem rg_commit {k : Unit → TxProg S R X α} {l : Local S D O G M}
    (h : ∀ l₁, Envs st J l l₁ → J l₁.gen l₁.db → J l₁.gen (l₁.view st) ∧
      st.rg J Q (k ()) ⟨l₁.gen, l₁.view st, [], l₁.mem, l₁.acts ++ [(.commit, l₁.view st)]⟩) :
    st.rg J Q (.act .commit k) l := by
  refine ⟨fun _ l₁ he hJ => (h l₁ he hJ).1, ?_⟩
  rintro ⟨⟩ l' ⟨l₁, he, hJ, rfl⟩
  exact (h l₁ he hJ).2

/-- The rule for a rollback. -/
theorem rg_rollback {k : Unit → TxProg S R X α} {l : Local S D O G M}
    (h : ∀ l₁, Envs st J l l₁ → J l₁.gen l₁.db →
      st.rg J Q (k ()) ⟨l₁.gen, l₁.db, [], l₁.mem, l₁.acts ++ [(.rollback, l₁.view st)]⟩) :
    st.rg J Q (.act .rollback k) l := by
  refine ⟨nofun, ?_⟩
  rintro ⟨⟩ l' ⟨l₁, he, hJ, rfl⟩
  exact h l₁ he hJ

theorem rg_mono {p : TxProg S R X α} {l : Local S D O G M} (hQ : ∀ o l', Q o l' → Q' o l')
    (h : st.rg J Q p l) : st.rg J Q' p l :=
  Prog.wp_mono (fun o _ hq l' he => hQ o l' (hq l' he)) h

/-- The rule for sequencing. -/
theorem rg_bind {Q : Except X β → Local S D O G M → Prop} {p : TxProg S R X α}
    {f : α → TxProg S R X β} {l : Local S D O G M}
    (h : st.rg J (fun o l' => match o with
      | .ok a => st.rg J Q (f a) l'
      | .error x => Q (.error x) l') p l) : st.rg J Q (p.bind f) l := by
  rw [rg, Prog.wp_bind]
  refine Prog.wp_mono (fun o l' hq => ?_) h
  cases o with
  | ok a => exact hq l' .refl
  | error x => exact hq

/-- The rule for an exception handler. -/
theorem rg_tryCatch {p : TxProg S R X α} {f : X → TxProg S R X α} {l : Local S D O G M}
    (h : st.rg J (fun o l' => match o with
      | .ok a => Q (.ok a) l'
      | .error x => st.rg J Q (f x) l') p l) : st.rg J Q (p.tryCatch f) l := by
  rw [rg, Prog.wp_tryCatch]
  refine Prog.wp_mono (fun o l' hq => ?_) h
  cases o with
  | ok a => exact hq
  | error x => exact hq l' .refl

/-- The state with another record of what has been performed. -/
def Local.setActs (l : Local S D O G M) (acts : List (TxAct S × D)) : Local S D O G M :=
  ⟨l.gen, l.db, l.log, l.mem, acts⟩

theorem Envs.setActs {l l' : Local S D O G M} (h : Envs st J l l') (acts : List (TxAct S × D)) :
    Envs st J (l.setActs acts) (l'.setActs acts) := by
  induction h with
  | refl => exact .refl
  | tail _ hs ih =>
    refine .tail ih ?_
    cases hs with
    | gen hg => exact .gen hg
    | commit hc hJ => exact .commit hc hJ

/-- What has been performed before does not matter. -/
theorem rg_setActs {p : TxProg S R X α} {l : Local S D O G M} {acts : List (TxAct S × D)}
    (h : st.rg J Q p (l.setActs acts))
    (hQ : ∀ o l' acts, Q o (l'.setActs acts) → Q' o l') : st.rg J Q' p l := by
  induction p generalizing l acts with
  | ret a => exact fun l' he => hQ _ _ _ (h _ (he.setActs acts))
  | raise x => exact fun l' he => hQ _ _ _ (h _ (he.setActs acts))
  | act e k ih =>
    refine ⟨fun hc l₁ h₁ hJ => h.1 hc (l₁.setActs acts) (h₁.setActs acts) hJ, ?_⟩
    rintro r l' ⟨l₁, h₁, hJ, ho⟩
    refine ih r (h.2 r (l'.setActs (acts ++ [(e, l₁.view st)])) ⟨l₁.setActs acts, h₁.setActs acts, hJ, ?_⟩)
    cases e with
    | stmt s =>
      obtain ⟨ops, gen, mem, hx, rfl⟩ := ho
      exact ⟨ops, gen, mem, hx, rfl⟩
    | commit =>
      obtain rfl := ho
      rfl
    | rollback =>
      obtain rfl := ho
      rfl

end Rules

/-! ### Soundness -/

section Sound

variable {ι X A α : Type} [DecidableEq ι]
variable {st : Store S R D O G M} {J : G → D → Prop}

/-- What session `i` of a pool knows. -/
def Pool.local (P : Pool ι S R D O G M X A) (i : ι) (acts : List (TxAct S × D)) :
    Local S D O G M :=
  ⟨P.gen, P.db, (P.thr i).log, (P.thr i).mem, acts⟩

/-- The committed database keeps `J`, the open logs are compatible, and each of the sessions `I`
keeps `J` among the others. -/
structure Pool.Inv (st : Store S R D O G M) (J : G → D → Prop) (I : ι → Prop)
    (P : Pool ι S R D O G M X A) : Prop where
  db : J P.gen P.db
  sep : ∀ i j, i ≠ j → st.compat (P.thr i).log (P.thr j).log
  thr : ∀ i, I i → ∀ p, (P.thr i).prog = some p →
    ∃ acts, st.rg J (fun _ _ => True) p (P.local i acts)

/-- Open logs stay compatible when the new log of session `i` is compatible with the others. -/
theorem Pool.sep_update {P : Pool ι S R D O G M X A} {i : ι} {t : Thread S R O M X A}
    (h : ∀ i j, i ≠ j → st.compat (P.thr i).log (P.thr j).log)
    (ht : ∀ j, j ≠ i → st.compat t.log (P.thr j).log) (a b : ι) (hab : a ≠ b) :
    st.compat (Function.update P.thr i t a).log (Function.update P.thr i t b).log := by
  by_cases ha : a = i
  · subst ha
    simpa [Function.update_of_ne (Ne.symm hab)] using ht b (Ne.symm hab)
  · by_cases hb : b = i
    · subst hb
      simpa [Function.update_of_ne hab] using st.compat_symm (ht a hab)
    · simpa [Function.update_of_ne ha, Function.update_of_ne hb] using h a b hab

/-- What a step of session `i` is to the session `j`: its program stays, and its state changes as
by steps of the others. -/
def Pool.Seen (st : Store S R D O G M) (J : G → D → Prop) (j : ι)
    (P P' : Pool ι S R D O G M X A) : Prop :=
  (P'.thr j).prog = (P.thr j).prog ∧ ∀ acts, Envs st J (P.local j acts) (P'.local j acts)

/-- An action of session `i`, as that session and as the others see it. -/
theorem Pool.Perform.local_steps {i : ι} {p : Option (TxProg S R X A)}
    {P P' : Pool ι S R D O G M X A} {e : TxAct S} {r : TxAct.Resp R e} {I : ι → Prop}
    (h : Perform st i p P e r P') (hP : P.Inv st J I)
    (hJ : ∀ g g' d, g ≤ g' → J g d → J g' d)
    (hc : ∃ acts, st.CommitOk J e (P.local i acts)) :
    J P'.gen P'.db ∧ (∀ i j, i ≠ j → st.compat (P'.thr i).log (P'.thr j).log) ∧
      (P'.thr i).prog = p ∧
      (∀ acts, st.rgStep J (P.local i acts) e r (P'.local i (acts ++ [(e, P.view st i)]))) ∧
      ∀ j, j ≠ i → Pool.Seen st J j P P' := by
  cases h with
  | @stmt s r ops gen mem he hsep =>
    refine ⟨hJ _ _ _ (st.gen_le he) hP.db, Pool.sep_update hP.sep hsep, by simp, ?_, ?_⟩
    · intro acts
      exact ⟨_, .refl, hP.db, ops, gen, mem, he, by simp [Pool.local, Local.view, Pool.view]⟩
    · refine fun j hj => ⟨by simp [Function.update_of_ne hj], fun acts => .single ?_⟩
      simpa [Pool.local, Function.update_of_ne hj] using Env.gen (st.gen_le he)
  | commit =>
    obtain ⟨acts₀, hc⟩ := hc
    have hdb : J P.gen (P.view st i) := hc rfl _ .refl hP.db
    refine ⟨hdb, Pool.sep_update hP.sep fun j _ => st.compat_nil _, by simp, ?_, ?_⟩
    · intro acts
      exact ⟨_, .refl, hP.db, by simp [ownStep, Pool.local, Local.view, Pool.view]⟩
    · refine fun j hj => ⟨by simp [Function.update_of_ne hj], fun acts => .single ?_⟩
      have : Env st J (P.local j acts) ⟨P.gen, P.view st i, (P.thr j).log, (P.thr j).mem, acts⟩ :=
        .commit (hP.sep j i hj) hdb
      simpa [Pool.local, Function.update_of_ne hj] using this
  | rollback =>
    refine ⟨hP.db, Pool.sep_update hP.sep fun j _ => st.compat_nil _, by simp, ?_, ?_⟩
    · intro acts
      exact ⟨_, .refl, hP.db, by simp [ownStep, Pool.local, Local.view, Pool.view]⟩
    · refine fun j hj => ⟨by simp [Function.update_of_ne hj], fun acts => ?_⟩
      simp only [Pool.local, Function.update_of_ne hj]
      exact .refl

omit [DecidableEq ι] in
/-- What a session that has not moved owes, it still owes. -/
theorem Pool.Seen.rg {j : ι} {P P' : Pool ι S R D O G M X A} (h : Pool.Seen st J j P P')
    {I : ι → Prop} (hP : P.Inv st J I) (hj : I j) {q : TxProg S R X A}
    (hq : (P'.thr j).prog = some q) :
    ∃ acts, st.rg J (fun _ _ => True) q (P'.local j acts) := by
  obtain ⟨acts, hrg⟩ := hP.thr j hj q (h.1 ▸ hq)
  exact ⟨acts, rg_stable q _ _ hrg (h.2 acts)⟩

/-- A step of one of the sessions `I` keeps the invariant; the sessions that do not move see it as
steps of the others. -/
theorem Pool.Step.inv {i : ι} {P P' : Pool ι S R D O G M X A} {I : ι → Prop} (hi : I i)
    (h : Step st i P P') (hP : P.Inv st J I) (hJ : ∀ g g' d, g ≤ g' → J g d → J g' d) :
    P'.Inv st J I ∧ ∀ j, j ≠ i → Pool.Seen st J j P P' := by
  cases h with
  | @act _ e k r hp h =>
    obtain ⟨acts, hrg⟩ := hP.thr i hi _ hp
    obtain ⟨hdb, hsep, hprog, hown, hothers⟩ := h.local_steps hP hJ ⟨acts, hrg.1⟩
    refine ⟨⟨hdb, hsep, fun j hj q hq => ?_⟩, hothers⟩
    by_cases hji : j = i
    · subst hji
      obtain rfl : k r = q := by simpa [hprog] using hq
      exact ⟨_, hrg.2 r _ (hown acts)⟩
    · exact (hothers j hji).rg hP hj hq
  | die hp =>
    have hothers : ∀ j, j ≠ i → Pool.Seen st J j P
        ⟨P.db, P.gen, Function.update P.thr i ⟨none, [], (P.thr i).mem⟩, P.hist⟩ := by
      refine fun j hj => ⟨by simp [Function.update_of_ne hj], fun acts => ?_⟩
      simp only [Pool.local, Function.update_of_ne hj]
      exact .refl
    refine ⟨⟨hP.db, Pool.sep_update hP.sep fun j _ => st.compat_nil _, fun j hj q hq => ?_⟩,
      hothers⟩
    by_cases hji : j = i
    · subst hji
      simp at hq
    · exact (hothers j hji).rg hP hj hq

/-- **Sessions that keep `J` among the others keep it together**: in every pool that is reached,
`J` holds of the committed database. -/
theorem rg_sound {P P' : Pool ι S R D O G M X A} (h : P.Reaches st P')
    (hP : P.Inv st J fun _ => True) (hJ : ∀ g g' d, g ≤ g' → J g d → J g' d) :
    P'.Inv st J fun _ => True := by
  induction h with
  | refl => exact hP
  | tail _ hs ih =>
    obtain ⟨i, hs⟩ := hs
    exact (hs.inv trivial ih hJ).1

/-- A program that one session runs while the others move ends as `rg` says. -/
theorem rg_during {i : ι} {p : TxProg S R X α} {P P' : Pool ι S R D O G M X A}
    {acts acts₀ : List (TxAct S × D)} {o : Except X α}
    {Q : Except X α → Local S D O G M → Prop} (h : Pool.During st i p P acts o P')
    (hp : st.rg J Q p (P.local i acts₀)) (hP : P.Inv st J (· ≠ i))
    (hJ : ∀ g g' d, g ≤ g' → J g d → J g' d) :
    Q o (P'.local i (acts₀ ++ acts)) ∧ P'.Inv st J (· ≠ i) := by
  induction h generalizing acts₀ with
  | ret a P => exact ⟨by simpa using hp _ .refl, hP⟩
  | raise x P => exact ⟨by simpa using hp _ .refl, hP⟩
  | @own e k r P P₁ P' acts o h hk ih =>
    obtain ⟨hdb, hsep, hprog, hown, hothers⟩ := h.local_steps hP hJ ⟨_, hp.1⟩
    have hP₁ : P₁.Inv st J (· ≠ i) := by
      refine ⟨hdb, hsep, fun j hj q hq => ?_⟩
      exact (hothers j hj).rg hP hj hq
    simpa using ih (hp.2 r _ (hown acts₀)) hP₁
  | @other p j P P₁ P' acts o hj h hk ih =>
    obtain ⟨hP₁, hothers⟩ := h.inv (I := (· ≠ i)) hj hP hJ
    exact ih (rg_stable p _ _ hp ((hothers i (Ne.symm hj)).2 acts₀)) hP₁

end Sound

end RelyGuarantee

end Store

end ChatBackend
