import ChatBackend.Foundations.Schedule

/-!
# What the transactions of a pool promise each other

`Store.rg` lets a session count on an invariant of the committed database. Here it may also count
on what a commit does: `Protocol.may i g d log` says that session `i` may commit the writes `log`
on the database `d`. A protocol also has a `test`, a condition on the actions of a session and on
the view they are performed on; only the runs whose actions pass it are followed.

* `Protocol.rg` is the weakest precondition of a session among others that keep the protocol, with
  the rules `rg_stmt`, `rg_commit`, `rg_rollback`, `rg_bind`, `rg_sessionScope` and `rg_of_only`.
* `Pool.ReachesIf.keeps`: in every pool that is reached through steps that pass the test, the
  committed database is the result of a sequence of commits, each of which the protocol allows
  (`Commits`), and every session is as its weakest precondition says.
-/

namespace ChatBackend.Store

variable {ι S : Type} {R : S → Type} {D O G M : Type} [Preorder G]

/-- What the sessions of a pool promise each other. -/
structure Protocol (st : Store S R D O G M) (ι : Type) where
  /-- An invariant of the committed database. -/
  inv : G → D → Prop
  /-- The writes that a session may commit on a database. -/
  may : ι → G → D → List O → Prop
  /-- The views on which a session performs an action. -/
  test : ι → D → TxAct S → Prop
  inv_gen {g g' : G} {d : D} : g ≤ g' → inv g d → inv g' d
  inv_commit {i : ι} {g : G} {d : D} {log : List O} :
    inv g d → may i g d log → inv g (st.view log d)

/-- The commits `hist` lead from `d₀` to `d`, each allowed on the database it was made on. -/
inductive Commits (st : Store S R D O G M) (may : ι → G → D → List O → Prop) (d₀ : D) :
    List (ι × List O) → D → Prop
  | nil : Commits st may d₀ [] d₀
  | snoc {hist : List (ι × List O)} {d : D} {i : ι} {g : G} {log : List O}
      (h : Commits st may d₀ hist d) (hm : may i g d log) :
      Commits st may d₀ (hist ++ [(i, log)]) (st.view log d)

namespace Commits

variable {st : Store S R D O G M} {may : ι → G → D → List O → Prop} {d₀ d : D}
variable {hist : List (ι × List O)}

theorem of_nil (h : Commits st may d₀ [] d) : d = d₀ := by
  generalize hh : ([] : List (ι × List O)) = hist at h
  cases h with
  | nil => rfl
  | snoc => simp at hh

/-- A single commit. -/
theorem of_singleton {i : ι} {log : List O} (h : Commits st may d₀ [(i, log)] d) :
    ∃ g, may i g d₀ log ∧ d = st.view log d₀ := by
  generalize hh : [(i, log)] = hist at h
  cases h with
  | nil => cases hh
  | @snoc hist d' j g log' h hm =>
    have hh : [] ++ [(i, log)] = hist ++ [(j, log')] := hh
    obtain ⟨rfl, hc⟩ := List.append_inj' hh rfl
    obtain ⟨rfl, rfl⟩ := Prod.mk.inj (List.singleton_inj.1 hc)
    obtain rfl := of_nil h
    exact ⟨g, hm, rfl⟩

/-- What is allowed of every commit holds of all. -/
theorem forall_mem {A : ι → List O → Prop} (hmay : ∀ i g d log, may i g d log → A i log)
    (h : Commits st may d₀ hist d) : ∀ c ∈ hist, A c.1 c.2 := by
  induction h with
  | nil => exact nofun
  | snoc _ hm ih =>
    intro c hc
    obtain hc | hc := List.mem_append.1 hc
    · exact ih c hc
    · rw [List.mem_singleton.1 hc]
      exact hmay _ _ _ _ hm

theorem mono {may' : ι → G → D → List O → Prop}
    (hmay : ∀ i g d log, may i g d log → may' i g d log) (h : Commits st may d₀ hist d) :
    Commits st may' d₀ hist d := by
  induction h with
  | nil => exact .nil
  | snoc _ hm ih => exact .snoc ih (hmay _ _ _ _ hm)

/-- What every commit keeps of the database before it, all of them keep. -/
theorem rel {r : D → D → Prop} (hrefl : ∀ d, r d d) (htrans : ∀ {d d' d''}, r d d' → r d' d'' → r d d'')
    (hstep : ∀ i g d log, may i g d log → r d (st.view log d)) (h : Commits st may d₀ hist d) :
    r d₀ d := by
  induction h with
  | nil => exact hrefl d₀
  | snoc _ hm ih => exact htrans ih (hstep _ _ _ _ hm)

/-- A commit of the history, with the database that it was made on. -/
theorem exists_of_mem (h : Commits st may d₀ hist d) {c : ι × List O} (hc : c ∈ hist) :
    ∃ before d₁ g, before ++ [c] <+: hist ∧ Commits st may d₀ before d₁ ∧ may c.1 g d₁ c.2 ∧
      Commits st may d₀ (before ++ [c]) (st.view c.2 d₁) := by
  induction h with
  | nil => cases hc
  | @snoc hist d i g log h hm ih =>
    obtain hc | hc := List.mem_append.1 hc
    · obtain ⟨before, d₁, g₁, hprefix, hrest⟩ := ih hc
      exact ⟨before, d₁, g₁, hprefix.trans (List.prefix_append ..), hrest⟩
    · obtain rfl := List.mem_singleton.1 hc
      exact ⟨hist, d, g, List.prefix_rfl, h, hm, .snoc h hm⟩

section Table

variable {K L : Type} (table : D → List K) {emit : List O → List K}

/-- A table to which the logs append their rows. -/
theorem table_eq (hview : ∀ log d, table (st.view log d) = table d ++ emit log)
    (h : Commits st may d₀ hist d) : table d = table d₀ ++ hist.flatMap fun c => emit c.2 := by
  induction h with
  | nil => simp
  | snoc _ _ ih =>
    rw [hview, ih, List.flatMap_append, List.append_assoc]
    simp

/-- **Once**: when a commit inserts only rows with new keys, no key is inserted by two commits. -/
theorem once (key : K → L) (hview : ∀ log d, table (st.view log d) = table d ++ emit log)
    (hnew : ∀ i g d log, may i g d log → ∀ k ∈ emit log, ∀ k₀ ∈ table d, key k₀ ≠ key k)
    (h : Commits st may d₀ hist d) :
    (hist.Pairwise fun c c' => ∀ k ∈ emit c.2, ∀ k' ∈ emit c'.2, key k ≠ key k') ∧
      ∀ c ∈ hist, ∀ k ∈ emit c.2, ∀ k₀ ∈ table d₀, key k₀ ≠ key k := by
  induction h with
  | nil => exact ⟨.nil, nofun⟩
  | @snoc hist d i g log h hm ih =>
    have hmem : ∀ k₀, k₀ ∈ table d ↔ k₀ ∈ table d₀ ∨ ∃ c ∈ hist, k₀ ∈ emit c.2 := by
      intro k₀
      rw [h.table_eq table hview, List.mem_append, List.mem_flatMap]
    constructor
    · refine List.pairwise_append.2 ⟨ih.1, List.pairwise_singleton _ _, fun c hc c' hc' k hk k' hk' => ?_⟩
      rw [List.mem_singleton.1 hc'] at hk'
      exact hnew i g d log hm k' hk' k ((hmem k).2 (.inr ⟨c, hc, hk⟩))
    · intro c hc k hk k₀ hk₀
      obtain hc | hc := List.mem_append.1 hc
      · exact ih.2 c hc k hk k₀ hk₀
      · rw [List.mem_singleton.1 hc] at hk
        exact hnew i g d log hm k hk k₀ ((hmem k₀).2 (.inl hk₀))

end Table

end Commits

/-- What a session knows: the sequences, the committed database, the log of its open transaction,
its memory, and the logs that it has committed. -/
structure Own (D O G M : Type) where
  gen : G
  db : D
  log : List O
  mem : M
  done : List (List O)

/-- The database as the session sees it. -/
def Own.view (st : Store S R D O G M) (l : Own D O G M) : D := st.view l.log l.db

/-- The session after some more writes. -/
def Own.write (l : Own D O G M) (ops : List O) : Own D O G M :=
  ⟨l.gen, l.db, l.log ++ ops, l.mem, l.done⟩

omit [Preorder G] in
@[simp] theorem Own.write_nil (l : Own D O G M) : l.write [] = l := by
  simp [Own.write]

namespace Protocol

variable {st : Store S R D O G M} (pr : Protocol st ι) (i : ι)

/-! ## One session among others -/

/-- What another session can do to session `i`: advance the sequences, or commit what the protocol
allows, unless it waits for `i`. -/
inductive Rely : Own D O G M → Own D O G M → Prop
  | gen {l : Own D O G M} {g : G} (h : l.gen ≤ g) : Rely l ⟨g, l.db, l.log, l.mem, l.done⟩
  | commit {l : Own D O G M} {j : ι} {log : List O} (hj : j ≠ i)
      (hc : st.compat l.log log) (hm : pr.may j l.gen l.db log) :
      Rely l ⟨l.gen, st.view log l.db, l.log, l.mem, l.done⟩

/-- Any number of steps of the other sessions. -/
def Relies : Own D O G M → Own D O G M → Prop := Relation.ReflTransGen (pr.Rely i)

/-- The session's own action. -/
def act (st : Store S R D O G M) :
    Own D O G M → (e : TxAct S) → TxAct.Resp R e → Own D O G M → Prop
  | l, .stmt s, r, l' => ∃ ops gen mem, st.exec s l.gen l.mem (l.view st) r ops gen mem ∧
      l' = ⟨gen, l.db, l.log ++ ops, mem, l.done⟩
  | l, .commit, _, l' => l' = ⟨l.gen, l.view st, [], l.mem, l.done ++ [l.log]⟩
  | l, .rollback, _, l' => l' = ⟨l.gen, l.db, [], l.mem, l.done⟩

/-- Some steps of the others, then an action of the session that passes the test. -/
def step (l : Own D O G M) (e : TxAct S) (r : TxAct.Resp R e) (l' : Own D O G M) : Prop :=
  ∃ l₁, pr.Relies i l l₁ ∧ pr.inv l₁.gen l₁.db ∧ pr.test i (l₁.view st) e ∧ act st l₁ e r l'

/-- A session commits only what the protocol allows, whatever the others have done by then. -/
def Owes (e : TxAct S) (l : Own D O G M) : Prop :=
  e = .commit → ∀ l₁, pr.Relies i l l₁ → pr.inv l₁.gen l₁.db → pr.test i (l₁.view st) e →
    pr.may i l₁.gen l₁.db l₁.log

/-- Every run of `p` among sessions that keep the protocol keeps it, and ends in `Q`. -/
def rg {X α : Type} (Q : Except X α → Own D O G M → Prop) (p : TxProg S R X α)
    (l : Own D O G M) : Prop :=
  p.wp (pr.step i) (pr.Owes i)
    (fun o l => ∀ l', pr.Relies i l l' → pr.inv l'.gen l'.db → Q o l') l

variable {pr i} {X α β : Type} {Q Q' : Except X α → Own D O G M → Prop}
variable {l l' : Own D O G M}

/-- A property that the other sessions cannot break. -/
def Stable (pr : Protocol st ι) (i : ι) (A : Own D O G M → Prop) : Prop :=
  ∀ l l', pr.inv l.gen l.db → A l → pr.Rely i l l' → A l'

theorem Rely.inv (h : pr.Rely i l l') (hl : pr.inv l.gen l.db) : pr.inv l'.gen l'.db := by
  cases h with
  | gen hg => exact pr.inv_gen hg hl
  | commit _ _ hm => exact pr.inv_commit hl hm

theorem Relies.inv (h : pr.Relies i l l') (hl : pr.inv l.gen l.db) : pr.inv l'.gen l'.db := by
  induction h with
  | refl => exact hl
  | tail _ hs ih => exact hs.inv ih

theorem Relies.own (h : pr.Relies i l l') :
    l'.log = l.log ∧ l'.mem = l.mem ∧ l'.done = l.done ∧ l.gen ≤ l'.gen := by
  induction h with
  | refl => exact ⟨rfl, rfl, rfl, le_refl _⟩
  | tail _ hs ih =>
    cases hs with
    | gen hg => exact ⟨ih.1, ih.2.1, ih.2.2.1, ih.2.2.2.trans hg⟩
    | commit => exact ih

theorem Stable.and {A B : Own D O G M → Prop} (hA : Stable pr i A) (hB : Stable pr i B) :
    Stable pr i fun l => A l ∧ B l :=
  fun l l' hi h hr => ⟨hA l l' hi h.1 hr, hB l l' hi h.2 hr⟩

/-- What the log and the commits of the session say. -/
theorem Stable.own (B : List O → List (List O) → Prop) :
    Stable pr i fun l => B l.log l.done := by
  intro l l' _ h hr
  cases hr with
  | gen => exact h
  | commit => exact h

/-- The rule for using a stable property after the steps of the others. -/
theorem Stable.relies {A : Own D O G M → Prop} (hA : Stable pr i A) (hl : pr.inv l.gen l.db)
    (h : A l) (he : pr.Relies i l l') : A l' := by
  induction he with
  | refl => exact h
  | tail hs hr ih => exact hA _ _ (Relies.inv hs hl) ih hr

theorem rg_stable {p : TxProg S R X α} (h : pr.rg i Q p l) (he : pr.Relies i l l') :
    pr.rg i Q p l' := by
  cases p with
  | ret a => exact fun l'' he' => h _ (he.trans he')
  | raise x => exact fun l'' he' => h _ (he.trans he')
  | act e k =>
    refine ⟨fun hc l₁ h₁ => h.1 hc l₁ (he.trans h₁), ?_⟩
    rintro r l'' ⟨l₁, h₁, hrest⟩
    exact h.2 r l'' ⟨l₁, he.trans h₁, hrest⟩

/-- What holds of the actions of a program, holds after steps of the others. -/
theorem acts_stable {C : TxAct S → Prop} {p : TxProg S R X α}
    (h : p.wp (pr.step i) (fun e _ => C e) (fun _ _ => True) l) (he : pr.Relies i l l') :
    p.wp (pr.step i) (fun e _ => C e) (fun _ _ => True) l' := by
  cases p with
  | ret a => trivial
  | raise x => trivial
  | act e k =>
    refine ⟨h.1, ?_⟩
    rintro r l'' ⟨l₁, h₁, hrest⟩
    exact h.2 r l'' ⟨l₁, he.trans h₁, hrest⟩

/-! ### Rules -/

theorem rg_ret {a : α} (h : ∀ l', pr.Relies i l l' → pr.inv l'.gen l'.db → Q (.ok a) l') :
    pr.rg i Q (.ret a) l := h

theorem rg_raise {x : X} (h : ∀ l', pr.Relies i l l' → pr.inv l'.gen l'.db → Q (.error x) l') :
    pr.rg i Q (.raise x) l := h

/-- The rule for a statement. -/
theorem rg_stmt {s : S} {k : R s → TxProg S R X α}
    (h : ∀ l₁, pr.Relies i l l₁ → pr.inv l₁.gen l₁.db → pr.test i (l₁.view st) (.stmt s) →
      ∀ r ops gen mem, st.exec s l₁.gen l₁.mem (l₁.view st) r ops gen mem →
        pr.rg i Q (k r) ⟨gen, l₁.db, l₁.log ++ ops, mem, l₁.done⟩) :
    pr.rg i Q (.act (.stmt s) k) l := by
  refine ⟨nofun, ?_⟩
  rintro r l' ⟨l₁, he, hinv, ht, ops, gen, mem, hx, rfl⟩
  exact h l₁ he hinv ht r ops gen mem hx

/-- The rule for a statement of a store that has a clock next to its sequence. The passing of time
is a step of the others. -/
theorem rg_clock {N T : Type} [Preorder N] [Preorder T] {st : Store S R D O (N × T) Unit}
    {run : T → N → D → (s : S) → R s × List O × N} {pr : Protocol st ι}
    {Q : Except X α → Own D O (N × T) Unit → Prop} {l : Own D O (N × T) Unit}
    (hexec : ∀ s g m d r ops g' m', st.exec s g m d r ops g' m' →
      g.2 ≤ g'.2 ∧ run g'.2 g.1 d s = (r, ops, g'.1)) {s : S} {k : R s → TxProg S R X α}
    (h : ∀ l₁, pr.Relies i l l₁ → pr.inv l₁.gen l₁.db → pr.test i (l₁.view st) (.stmt s) →
      pr.rg i Q (k (run l₁.gen.2 l₁.gen.1 (l₁.view st) s).1)
        ⟨((run l₁.gen.2 l₁.gen.1 (l₁.view st) s).2.2, l₁.gen.2), l₁.db,
          l₁.log ++ (run l₁.gen.2 l₁.gen.1 (l₁.view st) s).2.1, (), l₁.done⟩) :
    pr.rg i Q (.act (.stmt s) k) l := by
  refine rg_stmt fun l₁ he hi ht r ops gen mem hx => ?_
  obtain ⟨g, t⟩ := gen
  obtain ⟨htime, hrun⟩ := hexec s _ _ _ _ _ _ _ hx
  have hle : l₁.gen ≤ (l₁.gen.1, t) := ⟨le_refl _, htime⟩
  have := h ⟨(l₁.gen.1, t), l₁.db, l₁.log, l₁.mem, l₁.done⟩ (he.tail (.gen hle))
    (pr.inv_gen hle hi) ht
  simp only [Own.view] at this hrun
  rw [hrun] at this
  exact this

/-- The rule for a commit. -/
theorem rg_commit {k : Unit → TxProg S R X α}
    (h : ∀ l₁, pr.Relies i l l₁ → pr.inv l₁.gen l₁.db → pr.test i (l₁.view st) .commit →
      pr.may i l₁.gen l₁.db l₁.log ∧
      pr.rg i Q (k ()) ⟨l₁.gen, l₁.view st, [], l₁.mem, l₁.done ++ [l₁.log]⟩) :
    pr.rg i Q (.act .commit k) l := by
  refine ⟨fun _ l₁ he hinv ht => (h l₁ he hinv ht).1, ?_⟩
  rintro ⟨⟩ l' ⟨l₁, he, hinv, ht, rfl⟩
  exact (h l₁ he hinv ht).2

/-- The rule for a rollback. -/
theorem rg_rollback {k : Unit → TxProg S R X α}
    (h : ∀ l₁, pr.Relies i l l₁ → pr.inv l₁.gen l₁.db →
      pr.rg i Q (k ()) ⟨l₁.gen, l₁.db, [], l₁.mem, l₁.done⟩) :
    pr.rg i Q (.act .rollback k) l := by
  refine ⟨nofun, ?_⟩
  rintro ⟨⟩ l' ⟨l₁, he, hinv, -, rfl⟩
  exact h l₁ he hinv

theorem rg_mono {p : TxProg S R X α} (hQ : ∀ o l', pr.inv l'.gen l'.db → Q o l' → Q' o l')
    (h : pr.rg i Q p l) : pr.rg i Q' p l :=
  Prog.wp_mono (fun o _ hq l' he hi => hQ o l' hi (hq l' he hi)) h

/-- An action of a session that keeps the protocol keeps the invariant. -/
theorem step_inv {e : TxAct S} {r : TxAct.Resp R e} (hs : pr.step i l e r l')
    (ho : pr.Owes i e l) : pr.inv l'.gen l'.db := by
  obtain ⟨l₁, he, hi, ht, hact⟩ := hs
  cases e with
  | stmt s =>
    obtain ⟨ops, gen, mem, hx, rfl⟩ := hact
    exact pr.inv_gen (st.gen_le hx) hi
  | commit =>
    obtain rfl := hact
    exact pr.inv_commit hi (ho rfl l₁ he hi ht)
  | rollback =>
    obtain rfl := hact
    exact hi

/-- The end of a program, with the invariant at hand and no steps of the others in between. -/
theorem wp_of_rg {p : TxProg S R X α} {P : Except X α → Own D O G M → Prop}
    (hinv : pr.inv l.gen l.db) (h : pr.rg i P p l)
    (hP : ∀ o l', pr.inv l'.gen l'.db → P o l' → Q o l') :
    p.wp (pr.step i) (pr.Owes i) Q l := by
  induction p generalizing l with
  | ret a => exact hP _ _ hinv (h l .refl hinv)
  | raise x => exact hP _ _ hinv (h l .refl hinv)
  | act e k ih => exact ⟨h.1, fun r l' hs => ih r (step_inv hs h.1) (h.2 r l' hs)⟩

/-- The rule for sequencing. -/
theorem rg_bind {Q : Except X β → Own D O G M → Prop} {p : TxProg S R X α}
    {f : α → TxProg S R X β} (hinv : pr.inv l.gen l.db)
    (h : pr.rg i (fun o l' => match o with
      | .ok a => pr.rg i Q (f a) l'
      | .error x => pr.rg i Q (.raise x) l') p l) : pr.rg i Q (p.bind f) l := by
  rw [rg, Prog.wp_bind]
  refine wp_of_rg hinv h fun o l' _ hq => ?_
  cases o with
  | ok a => exact hq
  | error x => exact hq

/-- The rule for a handler. -/
theorem rg_tryCatch {p : TxProg S R X α} {f : X → TxProg S R X α} (hinv : pr.inv l.gen l.db)
    (h : pr.rg i (fun o l' => match o with
      | .ok a => pr.rg i Q (.ret a) l'
      | .error x => pr.rg i Q (f x) l') p l) : pr.rg i Q (p.tryCatch f) l := by
  rw [rg, Prog.wp_tryCatch]
  refine wp_of_rg hinv h fun o l' _ hq => ?_
  cases o with
  | ok a => exact hq
  | error x => exact hq

/-- The rule for the body of a session. -/
theorem rg_sessionScope {p : TxProg S R X α} (hinv : pr.inv l.gen l.db)
    (h : pr.rg i (fun o l' => match o with
      | .ok a => pr.rg i Q (TxProg.commit.bind fun _ => .ret a) l'
      | .error x => pr.rg i Q (TxProg.rollback.bind fun _ => .raise x) l') p l) :
    pr.rg i Q (TxProg.sessionScope p) l := by
  rw [rg, TxProg.sessionScope, Prog.wp_tryCatch, Prog.wp_bind]
  refine wp_of_rg hinv h fun o l' _ hq => ?_
  cases o with
  | ok a => exact hq
  | error x => exact hq

/-- The same for a body that has committed what it has written when it returns. -/
theorem rg_sessionScope_of_nil {K : α → Own D O G M → Prop} {p : TxProg S R X α}
    (hinv : pr.inv l.gen l.db) (hmay : ∀ g d, pr.inv g d → pr.may i g d [])
    (hK : ∀ a l l', K a l → pr.Relies i l l' → K a l')
    (hdone : ∀ a g d m done, K a ⟨g, d, [], m, done⟩ → K a ⟨g, d, [], m, done ++ [[]]⟩)
    (h : pr.rg i (fun o l' => ∀ a, o = .ok a → l'.log = [] ∧ K a l') p l) :
    pr.rg i (fun o l' => ∀ a, o = .ok a → K a l') (TxProg.sessionScope p) l := by
  refine rg_sessionScope hinv (rg_mono (fun o l' _ hq => ?_) h)
  cases o with
  | error e => exact rg_rollback fun _ _ _ => rg_raise fun _ _ _ _ => nofun
  | ok a =>
    obtain ⟨hlog, hk⟩ := hq a rfl
    refine rg_commit fun l₁ he hi _ => ?_
    have hk₁ : K a l₁ := hK a l' l₁ hk he
    have hlog₁ : l₁.log = [] := he.own.1.trans hlog
    obtain ⟨g, d, log, m, done⟩ := l₁
    obtain rfl : log = [] := hlog₁
    refine ⟨hmay g d hi, rg_ret fun l₂ he₂ _ a' ha => ?_⟩
    obtain rfl := Except.ok.inj ha
    exact hK a _ l₂ (hdone a g d m done hk₁) he₂

/-- A program whose statements write only what may always be committed. -/
theorem rg_of_only {A : TxAct S → Prop} {Φ : O → Prop}
    (hA : ∀ s, A (.stmt s) → ∀ g m d r ops g' m', st.exec s g m d r ops g' m' → ∀ o ∈ ops, Φ o)
    (hmay : ∀ g d log, pr.inv g d → (∀ o ∈ log, Φ o) → pr.may i g d log) (p : TxProg S R X α)
    (hp : p.Only A) (hl : ∀ o ∈ l.log, Φ o) :
    pr.rg i (fun _ l' => ∀ o ∈ l'.log, Φ o) p l := by
  have hend : ∀ {l l' : Own D O G M}, (∀ o ∈ l.log, Φ o) → pr.Relies i l l' →
      ∀ o ∈ l'.log, Φ o := by
    intro l l' hl he
    rw [he.own.1]
    exact hl
  induction p generalizing l with
  | ret a => exact fun l' he _ => hend hl he
  | raise x => exact fun l' he _ => hend hl he
  | act e k ih =>
    cases e with
    | stmt s =>
      refine rg_stmt fun l₁ he _ _ r ops gen mem hx => ih r (hp.2 r) fun o ho => ?_
      exact (List.mem_append.1 ho).elim (hend hl he o) (hA s hp.1 _ _ _ _ _ _ _ hx o)
    | commit =>
      exact rg_commit fun l₁ he hi _ => ⟨hmay _ _ _ hi (hend hl he), ih () (hp.2 ()) nofun⟩
    | rollback => exact rg_rollback fun l₁ _ _ => ih () (hp.2 ()) nofun

/-- A program of statements keeps what the others and its statements keep. -/
theorem rg_of_keeps {A : TxAct S → Prop} {Φ : Own D O G M → Prop} (hΦ : Stable pr i Φ)
    (hA : ∀ e, A e → ∃ s, e = .stmt s)
    (hstmt : ∀ s, A (.stmt s) → ∀ l r ops gen mem, Φ l →
      st.exec s l.gen l.mem (l.view st) r ops gen mem → Φ ⟨gen, l.db, l.log ++ ops, mem, l.done⟩)
    {p : TxProg S R X α} (hp : p.Only A) (hinv : pr.inv l.gen l.db) (h : Φ l) :
    pr.rg i (fun _ l' => Φ l') p l := by
  induction p generalizing l with
  | ret a => exact fun l' he _ => hΦ.relies hinv h he
  | raise x => exact fun l' he _ => hΦ.relies hinv h he
  | act e k ih =>
    obtain ⟨s, rfl⟩ := hA e hp.1
    refine rg_stmt fun l₁ he hi _ r ops gen mem hx => ?_
    exact ih r (hp.2 r) (pr.inv_gen (st.gen_le hx) hi)
      (hstmt s hp.1 l₁ r ops gen mem (hΦ.relies hinv h he) hx)

/-- A run of a session that has the store for itself is one among others: what it has committed, the
protocol allows. -/
theorem runs_commits {p : TxProg S R X α} {w w' : World D G M} {o : Except X α}
    (hr : Prog.Runs st.step p w o w') (htest : ∀ v e, pr.test i v e) {d₀ : D} (h : pr.rg i Q p l)
    (hl : l.gen = w.gen ∧ l.db = w.db ∧ l.view st = w.work ∧ l.mem = w.mem)
    (hinv : pr.inv l.gen l.db) (hc : Commits st pr.may d₀ (l.done.map (Prod.mk i)) l.db) :
    ∃ l', Q o l' ∧ l'.gen = w'.gen ∧ l'.db = w'.db ∧ pr.inv l'.gen l'.db ∧
      Commits st pr.may d₀ (l'.done.map (Prod.mk i)) l'.db := by
  induction hr generalizing l with
  | ret a w => exact ⟨l, h l .refl hinv, hl.1, hl.2.1, hinv, hc⟩
  | raise x w => exact ⟨l, h l .refl hinv, hl.1, hl.2.1, hinv, hc⟩
  | @act e k w w₁ w' r o hT _ ih =>
    have hstep : ∀ l₁, act st l e r l₁ → pr.rg i Q (k r) l₁ ∧ pr.inv l₁.gen l₁.db := by
      intro l₁ hact
      have hs : pr.step i l e r l₁ := ⟨l, .refl, hinv, htest _ _, hact⟩
      exact ⟨h.2 r l₁ hs, step_inv hs h.1⟩
    obtain ⟨hgen, hdb, hview, hmem⟩ := hl
    cases e with
    | stmt s =>
      obtain ⟨ops, gen, mem, hx, rfl⟩ := hT
      rw [← hgen, ← hview, ← hmem] at hx
      obtain ⟨hrg, hi⟩ := hstep ⟨gen, l.db, l.log ++ ops, mem, l.done⟩ ⟨ops, gen, mem, hx, rfl⟩
      refine ih hrg ⟨rfl, hdb, ?_, rfl⟩ hi hc
      show st.view (l.log ++ ops) l.db = st.view ops w.work
      rw [st.view_append, ← hview]
      rfl
    | commit =>
      obtain rfl := hT
      obtain ⟨hrg, hi⟩ := hstep ⟨l.gen, l.view st, [], l.mem, l.done ++ [l.log]⟩ rfl
      refine ih hrg ⟨hgen, hview, hview, hmem⟩ hi ?_
      rw [List.map_append]
      exact .snoc hc (h.1 rfl l .refl hinv (htest _ _))
    | rollback =>
      obtain rfl := hT
      obtain ⟨hrg, hi⟩ := hstep ⟨l.gen, l.db, [], l.mem, l.done⟩ rfl
      exact ih hrg ⟨hgen, hdb, hdb, hmem⟩ hi hc

end Protocol

/-! ## One session after the other -/

section Sequence

variable {C X A : Type} {st : Store S R D O G M} {serve : C → TxProg S R X A}
variable {ok : G → D → C → Prop} {m : M} {g₀ g : G} {d₀ d : D} {steps : List (C × D × D)}

/-- The sessions of a list of calls, one after the other, each with the database before and after
it; `ok` holds of every call in the state that it finds. -/
inductive Sequence (st : Store S R D O G M) (serve : C → TxProg S R X A) (ok : G → D → C → Prop)
    (m : M) (g₀ : G) (d₀ : D) : List (C × D × D) → G → D → Prop
  | nil : Sequence st serve ok m g₀ d₀ [] g₀ d₀
  | snoc {steps : List (C × D × D)} {g : G} {d : D} {c : C} {o : Except X A} {w : World D G M}
      (h : Sequence st serve ok m g₀ d₀ steps g d) (hok : ok g d c)
      (hr : Prog.Runs st.step (serve c) ⟨d, d, g, m⟩ o w) :
      Sequence st serve ok m g₀ d₀ (steps ++ [(c, d, w.db)]) w.gen w.db

/-- What every call keeps, and says of its step. -/
theorem Sequence.keeps {I : G → D → Prop} {Φ : C → D → D → Prop}
    (hstep : ∀ g d c o w, I g d → ok g d c → Prog.Runs st.step (serve c) ⟨d, d, g, m⟩ o w →
      I w.gen w.db ∧ Φ c d w.db)
    (h : Sequence st serve ok m g₀ d₀ steps g d) (h₀ : I g₀ d₀) :
    I g d ∧ ∀ x ∈ steps, Φ x.1 x.2.1 x.2.2 := by
  induction h with
  | nil => exact ⟨h₀, nofun⟩
  | snoc _ hok hr ih =>
    obtain ⟨hi, hΦ⟩ := hstep _ _ _ _ _ ih.1 hok hr
    refine ⟨hi, fun x hx => ?_⟩
    obtain hx | hx := List.mem_append.1 hx
    · exact ih.2 x hx
    · rw [List.mem_singleton.1 hx]
      exact hΦ

variable {Ω : Type}

/-- The sessions of a list of calls, computed. -/
def serveAll (h : Handler st Ω) (serve : C → TxProg S R X A) (m : M) (ω : Ω) :
    List C → G → D → List (C × D × D) × G × D
  | [], g, d => ([], g, d)
  | c :: cs, g, d =>
    match (serve c).eval h.act (⟨d, d, g, m⟩, ω) with
    | (_, w, _) => match serveAll h serve m ω cs w.gen w.db with
      | (steps, g', d') => ((c, d, w.db) :: steps, g', d')

theorem serveAll_sequence (h : Handler st Ω) (ω : Ω) (cs : List C) {g : G} {d : D}
    {steps : List (C × D × D)} (hs : Sequence st serve (fun _ _ _ => True) m g₀ d₀ steps g d) :
    Sequence st serve (fun _ _ _ => True) m g₀ d₀ (steps ++ (serveAll h serve m ω cs g d).1)
      (serveAll h serve m ω cs g d).2.1 (serveAll h serve m ω cs g d).2.2 := by
  induction cs generalizing g d steps with
  | nil =>
    rw [serveAll, List.append_nil]
    exact hs
  | cons c cs ih =>
    have hr := Store.eval_runs_step h (serve c) (⟨d, d, g, m⟩, ω)
    have := ih (hs.snoc trivial hr)
    simpa [serveAll, List.append_assoc] using this

end Sequence

/-! ## Pools -/

namespace Pool

variable {X A : Type} [DecidableEq ι] {st : Store S R D O G M}

/-- A step of session `i`; its actions pass the test. -/
inductive StepIf (st : Store S R D O G M) (test : ι → D → TxAct S → Prop) (i : ι) :
    Pool ι S R D O G M X A → Pool ι S R D O G M X A → Prop
  | act {P P' : Pool ι S R D O G M X A} {e : TxAct S} {k : TxAct.Resp R e → TxProg S R X A}
      {r : TxAct.Resp R e} (hp : (P.thr i).prog = some (.act e k)) (ht : test i (P.view st i) e)
      (h : Perform st i (some (k r)) P e r P') : StepIf st test i P P'
  | die {P : Pool ι S R D O G M X A} {p : TxProg S R X A} (hp : (P.thr i).prog = some p) :
      StepIf st test i P ⟨P.db, P.gen, Function.update P.thr i ⟨none, [], (P.thr i).mem⟩, P.hist⟩

/-- The pools that a pool can become through steps that pass the test. -/
def ReachesIf (st : Store S R D O G M) (test : ι → D → TxAct S → Prop) :
    Pool ι S R D O G M X A → Pool ι S R D O G M X A → Prop :=
  Relation.ReflTransGen fun P P' => ∃ i, StepIf st test i P P'

/-- Without a test, all steps. -/
theorem Reaches.reachesIf {test : ι → D → TxAct S → Prop} (htest : ∀ i d e, test i d e)
    {P P' : Pool ι S R D O G M X A} (h : P.Reaches st P') : P.ReachesIf st test P' := by
  refine Relation.ReflTransGen.mono ?_ _ _ h
  rintro P P' ⟨i, hs⟩
  refine ⟨i, ?_⟩
  cases hs with
  | act hp h => exact .act hp (htest _ _ _) h
  | die hp => exact .die hp

/-- The logs that session `i` has committed. -/
def commitsOf (P : Pool ι S R D O G M X A) (i : ι) : List (List O) :=
  (P.hist.filter fun c => c.1 = i).map Prod.snd

/-- What session `i` of a pool knows. -/
def own (P : Pool ι S R D O G M X A) (i : ι) : Own D O G M :=
  ⟨P.gen, P.db, (P.thr i).log, (P.thr i).mem, P.commitsOf i⟩

omit [Preorder G] in
/-- A commit of session `i` is in the history. -/
theorem mem_hist_of_commitsOf {P : Pool ι S R D O G M X A} {i : ι} {log : List O}
    (h : log ∈ P.commitsOf i) : (i, log) ∈ P.hist := by
  obtain ⟨c, hmem, rfl⟩ := List.mem_map.1 h
  obtain ⟨hhist, hj⟩ := List.mem_filter.1 hmem
  obtain rfl : c.1 = i := by simpa using hj
  exact hhist

/-- The commits so far are allowed, the open logs are compatible, and every session is as its
weakest precondition says. -/
structure Keeps (pr : Protocol st ι) (Q : ι → Except X A → Own D O G M → Prop) (d₀ : D)
    (P : Pool ι S R D O G M X A) : Prop where
  inv : pr.inv P.gen P.db
  sep : ∀ i j, i ≠ j → st.compat (P.thr i).log (P.thr j).log
  run : Commits st pr.may d₀ P.hist P.db
  thr : ∀ i p, (P.thr i).prog = some p → pr.rg i (Q i) p (P.own i)

variable {pr : Protocol st ι} {Q : ι → Except X A → Own D O G M → Prop} {d₀ : D}
variable {P P' : Pool ι S R D O G M X A}

/-- An action of session `i` as that session sees it. -/
theorem Perform.own {i : ι} {p : Option (TxProg S R X A)} {e : TxAct S} {r : TxAct.Resp R e}
    (h : Perform st i p P e r P') :
    (P'.thr i).prog = p ∧ Protocol.act st (P.own i) e r (P'.own i) := by
  cases h with
  | @stmt s r ops gen mem he hsep =>
    exact ⟨by simp, ops, gen, mem, he, by simp [Pool.own, commitsOf]⟩
  | commit =>
    exact ⟨by simp, by simp [Protocol.act, Pool.own, commitsOf, Own.view, Pool.view]⟩
  | rollback => exact ⟨by simp, by simp [Protocol.act, Pool.own, commitsOf]⟩

/-- What a step of session `i` is to session `j`: its own action, its death, or a step of another. -/
theorem StepIf.moves {i : ι} (h : StepIf st pr.test i P P') (hP : Keeps pr Q d₀ P) (j : ι)
    {q : TxProg S R X A} (hq : (P'.thr j).prog = some q) :
    (∃ e k r, (P.thr j).prog = some (.act e k) ∧ q = k r ∧
      pr.step j (P.own j) e r (P'.own j)) ∨
    ((P.thr j).prog = some q ∧ pr.Relies j (P.own j) (P'.own j)) := by
  cases h with
  | @act _ e k r hp ht h =>
    by_cases hji : j = i
    · subst hji
      obtain ⟨hprog, hown⟩ := h.own
      exact .inl ⟨e, k, r, hp, Option.some.inj (hq.symm.trans hprog),
        _, .refl, hP.inv, ht, hown⟩
    · refine .inr ?_
      cases h with
      | @stmt s r ops gen mem he hsep =>
        refine ⟨by simpa [Function.update_of_ne hji] using hq, .single ?_⟩
        have : pr.Rely j (P.own j) ⟨gen, P.db, (P.thr j).log, (P.thr j).mem, P.commitsOf j⟩ :=
          .gen (st.gen_le he)
        simpa [Pool.own, commitsOf, Function.update_of_ne hji] using this
      | commit =>
        refine ⟨by simpa [Function.update_of_ne hji] using hq, .single ?_⟩
        have hmay : pr.may i P.gen P.db (P.thr i).log := (hP.thr i _ hp).1 rfl _ .refl hP.inv ht
        have : pr.Rely j (P.own j)
            ⟨P.gen, st.view (P.thr i).log P.db, (P.thr j).log, (P.thr j).mem, P.commitsOf j⟩ :=
          .commit (Ne.symm hji) (hP.sep j i hji) hmay
        simpa [Pool.own, Pool.view, commitsOf, Function.update_of_ne hji, Ne.symm hji] using this
      | rollback =>
        refine ⟨by simpa [Function.update_of_ne hji] using hq, ?_⟩
        simp only [Pool.own, commitsOf, Function.update_of_ne hji]
        exact .refl
  | die hp =>
    by_cases hji : j = i
    · subst hji
      simp at hq
    · refine .inr ⟨by simpa [Function.update_of_ne hji] using hq, ?_⟩
      simp only [Pool.own, commitsOf, Function.update_of_ne hji]
      exact .refl

/-- A step that passes the test keeps everything. -/
theorem StepIf.keeps {i : ι} (h : StepIf st pr.test i P P') (hP : Keeps pr Q d₀ P) :
    Keeps pr Q d₀ P' := by
  have hthr : ∀ j q, (P'.thr j).prog = some q → pr.rg j (Q j) q (P'.own j) := by
    intro j q hq
    obtain ⟨e, k, r, hp, rfl, hstep⟩ | ⟨hp, hrel⟩ := h.moves hP j hq
    · exact (hP.thr j _ hp).2 r _ hstep
    · exact Protocol.rg_stable (hP.thr j q hp) hrel
  cases h with
  | @act _ e k r hp ht h =>
    cases h with
    | @stmt s r ops gen mem he hsep =>
      exact ⟨pr.inv_gen (st.gen_le he) hP.inv, Pool.sep_update hP.sep hsep, hP.run, hthr⟩
    | commit =>
      have hmay : pr.may i P.gen P.db (P.thr i).log := (hP.thr i _ hp).1 rfl _ .refl hP.inv ht
      exact ⟨pr.inv_commit hP.inv hmay, Pool.sep_update hP.sep fun j _ => st.compat_nil _,
        .snoc hP.run hmay, hthr⟩
    | rollback =>
      exact ⟨hP.inv, Pool.sep_update hP.sep fun j _ => st.compat_nil _, hP.run, hthr⟩
  | die hp => exact ⟨hP.inv, Pool.sep_update hP.sep fun j _ => st.compat_nil _, hP.run, hthr⟩

/-- **Sessions that keep the protocol keep it together.** -/
theorem ReachesIf.keeps (h : P.ReachesIf st pr.test P') (hP : Keeps pr Q d₀ P) :
    Keeps pr Q d₀ P' := by
  induction h with
  | refl => exact hP
  | tail _ hs ih =>
    obtain ⟨i, hs⟩ := hs
    exact hs.keeps ih

/-- **What every action of a session satisfies**, the next action of the session satisfies: `C` is
shown of the program of each session among sessions that keep the protocol. -/
theorem ReachesIf.acts {C : ι → TxAct S → Prop} (h : P.ReachesIf st pr.test P')
    (hP : Keeps pr Q d₀ P) (hC : ∀ i p, (P.thr i).prog = some p →
      p.wp (pr.step i) (fun e _ => C i e) (fun _ _ => True) (P.own i)) :
    ∀ i p, (P'.thr i).prog = some p →
      p.wp (pr.step i) (fun e _ => C i e) (fun _ _ => True) (P'.own i) := by
  induction h with
  | refl => exact hC
  | @tail P₁ P₂ h₁ hs ih =>
    intro j q hq
    obtain ⟨i, hs⟩ := hs
    obtain ⟨e, k, r, hp, rfl, hstep⟩ | ⟨hp, hrel⟩ := hs.moves (ReachesIf.keeps h₁ hP) j hq
    · exact (ih j _ hp).2 r _ hstep
    · exact Protocol.acts_stable (ih j q hp) hrel

/-- The commits so far were made by now. -/
theorem ReachesIf.commits_le (h : P.ReachesIf st pr.test P') (hP : Keeps pr Q d₀ P)
    (hc : Commits st (fun i g d log => g ≤ P.gen ∧ pr.may i g d log) d₀ P.hist P.db) :
    Commits st (fun i g d log => g ≤ P'.gen ∧ pr.may i g d log) d₀ P'.hist P'.db := by
  induction h with
  | refl => exact hc
  | @tail P₁ P₂ h₁ hs ih =>
    have hkeeps : Keeps pr Q d₀ P₁ := ReachesIf.keeps h₁ hP
    obtain ⟨i, hs⟩ := hs
    cases hs with
    | @act _ e k r hp ht h =>
      cases h with
      | stmt he hsep =>
        exact ih.mono fun i g d log hm => ⟨hm.1.trans (st.gen_le he), hm.2⟩
      | commit =>
        have hmay : pr.may i P₁.gen P₁.db (P₁.thr i).log :=
          (hkeeps.thr i _ hp).1 rfl _ .refl hkeeps.inv ht
        exact .snoc ih ⟨le_refl _, hmay⟩
      | rollback => exact ih
    | die hp => exact ih

/-- A session that has ended, has ended as its postcondition says. -/
theorem Keeps.result (hP : Keeps pr Q d₀ P) {i : ι} {a : A}
    (h : (P.thr i).prog = some (.ret a)) : Q i (.ok a) (P.own i) :=
  hP.thr i _ h _ .refl hP.inv

/-- The pool in which every session is about to run its program. -/
def begin (g : G) (d : D) (m : M) (progs : ι → TxProg S R X A) : Pool ι S R D O G M X A :=
  ⟨d, g, fun i => ⟨some (progs i), [], m⟩, []⟩

theorem begin_keeps {g : G} {m : M} {progs : ι → TxProg S R X A} (hinv : pr.inv g d₀)
    (h : ∀ i, pr.rg i (Q i) (progs i) ⟨g, d₀, [], m, []⟩) :
    Keeps pr Q d₀ (begin (O := O) g d₀ m progs) := by
  refine ⟨hinv, fun _ _ _ => st.compat_nil _, .nil, fun i p hp => ?_⟩
  obtain rfl : progs i = p := Option.some.inj hp
  exact h i

/-! ## Playing a schedule -/

section Play

variable {Ω : Type}

/-- The next action of session `i` passes the test. -/
def passes (st : Store S R D O G M) (test : ι → D → TxAct S → Bool) (i : ι)
    (P : Pool ι S R D O G M X A) : Bool :=
  match (P.thr i).prog with
  | some (.act e _) => test i (P.view st i) e
  | _ => false

/-- The steps of a schedule, as far as they can be taken and pass the test. -/
def playIf (h : Handler st Ω) (test : ι → D → TxAct S → Bool) (ids : List ι) :
    List ι → Pool ι S R D O G M X A → Ω → Option (Pool ι S R D O G M X A × Ω)
  | [], P, ω => some (P, ω)
  | i :: sched, P, ω =>
    if passes st test i P then
      match tick h ids i P ω with
      | some (P', ω') => playIf h test ids sched P' ω'
      | none => none
    else none

theorem Step.stepIf {test : ι → D → TxAct S → Bool} {i : ι} (h : Step st i P P')
    (ht : passes st test i P = true) : StepIf st (fun i d e => test i d e = true) i P P' := by
  cases h with
  | act hp h =>
    rw [passes, hp] at ht
    exact .act hp ht h
  | die hp => exact .die hp

theorem playIf_reachesIf {h : Handler st Ω} {test : ι → D → TxAct S → Bool} {ids : List ι}
    (hids : ∀ j, j ∈ ids) {sched : List ι} {ω ω' : Ω}
    (hp : playIf h test ids sched P ω = some (P', ω')) :
    P.ReachesIf st (fun i d e => test i d e = true) P' := by
  induction sched generalizing P ω with
  | nil =>
    obtain ⟨rfl, rfl⟩ := Prod.mk.inj (Option.some.inj hp)
    exact .refl
  | cons i sched ih =>
    unfold playIf at hp
    split at hp
    · rename_i hpass
      split at hp
      · rename_i P₁ ω₁ ht
        exact .head ⟨i, (tick_step hids ht).stepIf hpass⟩ (ih hp)
      · cases hp
    · cases hp

/-- A property of the pool that a schedule computes is one of a pool that is reached. -/
theorem exists_of_playIf {h : Handler st Ω} {test : ι → D → TxAct S → Bool} {ids : List ι}
    (hids : ∀ j, j ∈ ids) {sched : List ι} {ω : Ω} {goal : Pool ι S R D O G M X A → Bool}
    (hp : (playIf h test ids sched P ω).any (fun r => goal r.1) = true) :
    ∃ P', P.ReachesIf st (fun i d e => test i d e = true) P' ∧ goal P' = true := by
  obtain ⟨⟨P', ω'⟩, hr, ht⟩ := (Option.any_eq_true ..).1 hp
  exact ⟨P', playIf_reachesIf hids hr, ht⟩

end Play

end Pool

end ChatBackend.Store
