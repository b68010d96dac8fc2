import ChatBackend.Foundations.Guarantee

/-!
# A store with one more table

`Store.tabled` adds to a store a table into which rows are inserted. A program of the store is lifted to
the larger one, and what it does among any other sessions of the store it does there, among sessions
that write to both (`rg_lift`): the rows of the new table are left as they are.
-/

namespace ChatBackend

open Prog

/-- The statements of a store, and the insert of a row. -/
inductive TabledStmt (S K : Type) : Type
  | stmt (s : S)
  | insert (row : K)

@[reducible] def TabledStmt.Resp {S K : Type} (R : S → Type) : TabledStmt S K → Type
  | stmt s => R s
  | insert _ => Unit

/-- The writes. -/
inductive TabledOp (O K : Type) : Type
  | op (o : O)
  | insert (row : K)

/-- The tables of a store and the new one. -/
structure Tabled (D K : Type) where
  base : D
  rows : List K

namespace TabledOp

variable {O K : Type}

/-- The writes to the store. -/
def ops (log : List (TabledOp O K)) : List O :=
  log.filterMap fun o => match o with
    | .op o => some o
    | .insert _ => none

/-- The rows that are inserted. -/
def rows (log : List (TabledOp O K)) : List K :=
  log.filterMap fun o => match o with
    | .op _ => none
    | .insert row => some row

variable (log log' : List (TabledOp O K)) (os : List O) (row : K)

@[simp] theorem ops_nil : ops ([] : List (TabledOp O K)) = [] := rfl

@[simp] theorem rows_nil : rows ([] : List (TabledOp O K)) = [] := rfl

@[simp] theorem ops_append : ops (log ++ log') = ops log ++ ops log' := List.filterMap_append

@[simp] theorem rows_append : rows (log ++ log') = rows log ++ rows log' := List.filterMap_append

@[simp] theorem ops_map : ops (os.map (TabledOp.op (K := K))) = os := by
  induction os with
  | nil => rfl
  | cons o os ih => exact congrArg (o :: ·) ih

@[simp] theorem rows_map : rows (os.map (TabledOp.op (K := K))) = [] := by
  simp [rows]

@[simp] theorem ops_insert : ops [(insert row : TabledOp O K)] = [] := rfl

@[simp] theorem rows_insert : rows [(insert row : TabledOp O K)] = [row] := rfl

end TabledOp

namespace Store

variable {ι S : Type} {R : S → Type} {D O G M : Type} [Preorder G]

/-- A store with one more table. -/
def tabled (st : Store S R D O G M) (K : Type) :
    Store (TabledStmt S K) (TabledStmt.Resp R) (Tabled D K) (TabledOp O K) G M where
  apply
    | .op o, d => ⟨st.apply o d.base, d.rows⟩
    | .insert row, d => ⟨d.base, d.rows ++ [row]⟩
  exec
    | .stmt s, g, m, d, r, ops, g', m' =>
      ∃ os, ops = os.map .op ∧ st.exec s g m d.base r os g' m'
    | .insert row, g, m, _, _, ops, g', m' => ops = [.insert row] ∧ g' = g ∧ m' = m
  compat l l' := st.compat (TabledOp.ops l) (TabledOp.ops l')
  gen_le {s g g' m m' d r ops} h := by
    cases s with
    | stmt s =>
      obtain ⟨os, -, h⟩ := h
      exact st.gen_le h
    | insert row => exact h.2.1.ge
  compat_symm h := st.compat_symm h
  compat_nil l := st.compat_nil _

section View

variable (st : Store S R D O G M) {K : Type} (log : List (TabledOp O K)) (d : Tabled D K)

@[simp] theorem tabled_base :
    ((st.tabled K).view log d).base = st.view (TabledOp.ops log) d.base := by
  induction log generalizing d with
  | nil => rfl
  | cons o log ih =>
    rw [view_cons, ih]
    cases o <;> rfl

@[simp] theorem tabled_rows :
    ((st.tabled K).view log d).rows = d.rows ++ TabledOp.rows log := by
  induction log generalizing d with
  | nil => simp
  | cons o log ih =>
    rw [view_cons, ih]
    cases o <;> simp [tabled, TabledOp.rows]

end View

/-- The commits, as commits of the store. -/
theorem Commits.base {st : Store S R D O G M} {K : Type} {d₀ d : Tabled D K}
    {may : ι → G → Tabled D K → List (TabledOp O K) → Prop} {may' : ι → G → D → List O → Prop}
    {hist : List (ι × List (TabledOp O K))} (h : Commits (st.tabled K) may d₀ hist d)
    (hmay : ∀ i g d log, may i g d log → may' i g d.base (TabledOp.ops log)) :
    Commits st may' d₀.base (hist.map fun c => (c.1, TabledOp.ops c.2)) d.base := by
  induction h with
  | nil => exact .nil
  | @snoc hist d i g log _ hm ih =>
    rw [List.map_append, tabled_base]
    exact .snoc ih (hmay i g d log hm)

/-! ## Lifting -/

section Lift

variable {K X Y α : Type}

/-- The actions of the store in the larger one. -/
def liftAct : TxAct S → TxAct (TabledStmt S K)
  | .stmt s => .stmt (.stmt s)
  | .commit => .commit
  | .rollback => .rollback

/-- Their answers. -/
def liftAnswer : (e : TxAct S) → TxAct.Resp (TabledStmt.Resp R) (liftAct (K := K) e) → TxAct.Resp R e
  | .stmt _, r => r
  | .commit, r => r
  | .rollback, r => r

/-- A program of the store as one of the larger store; `x` says what becomes of its exceptions. -/
def lift (x : X → Y) (p : TxProg S R X α) : TxProg (TabledStmt S K) (TabledStmt.Resp R) Y α :=
  p.embed liftAct liftAnswer x

/-- The insert of a row. -/
abbrev insertRow (row : K) : TxProg (TabledStmt S K) (TabledStmt.Resp R) X Unit :=
  TxProg.stmt (TabledStmt.insert row)

/-- What a session of the larger store knows of the store. -/
def Own.base (l : Own (Tabled D K) (TabledOp O K) G M) : Own D O G M :=
  ⟨l.gen, l.db.base, TabledOp.ops l.log, l.mem, l.done.map TabledOp.ops⟩

theorem Own.base_view {st : Store S R D O G M} (l : Own (Tabled D K) (TabledOp O K) G M) :
    l.base.view st = (l.view (st.tabled K)).base := (tabled_base st l.log l.db).symm

/-- Sessions that may commit anything. -/
def free (st : Store S R D O G M) (ι : Type) : Protocol st ι where
  inv _ _ := True
  may _ _ _ _ := True
  test _ _ _ := True
  inv_gen _ _ := trivial
  inv_commit _ _ := trivial

variable {st : Store S R D O G M} {i : ι} {pr : Protocol (st.tabled K) ι}
variable {l l' : Own (Tabled D K) (TabledOp O K) G M}

/-- What another session of the larger store does is nothing that another session of the store may not
do. -/
theorem Rely.base (h : pr.Rely i l l') : (free st ι).Rely i l.base l'.base := by
  cases h with
  | gen hg => exact .gen hg
  | @commit j log hj hc hm =>
    have hbase : Own.base ⟨l.gen, (st.tabled K).view log l.db, l.log, l.mem, l.done⟩ =
        ⟨l.gen, st.view (TabledOp.ops log) l.base.db, l.base.log, l.base.mem, l.base.done⟩ := by
      simp [Own.base]
    rw [hbase]
    exact .commit hj hc trivial

theorem Relies.base (h : pr.Relies i l l') : (free st ι).Relies i l.base l'.base := by
  induction h with
  | refl => exact .refl
  | tail _ hs ih => exact ih.tail (Rely.base hs)

/-- **The rule for a lifted program** of statements. -/
theorem rg_lift {x : X → Y} {p : TxProg S R X α} {Q : Except X α → Own D O G M → Prop}
    {Q' : Except Y α → Own (Tabled D K) (TabledOp O K) G M → Prop} (hp : p.Only Pool.IsStmt)
    (h : (free st ι).rg i Q p l.base)
    (hQ : ∀ o l', pr.inv l'.gen l'.db → Q o l'.base → TabledOp.rows l'.log = TabledOp.rows l.log →
      l'.done = l.done → Q' (o.mapError x) l') :
    pr.rg i Q' (lift x p) l := by
  induction p generalizing l with
  | ret a =>
    exact fun l' he hi => hQ (.ok a) l' hi (h l'.base (Relies.base he) trivial) (by rw [he.own.1])
      he.own.2.2.1
  | raise y =>
    exact fun l' he hi => hQ (.error y) l' hi (h l'.base (Relies.base he) trivial) (by rw [he.own.1])
      he.own.2.2.1
  | act e k ih =>
    obtain ⟨s, rfl⟩ := hp.1
    refine Protocol.rg_stmt fun l₁ he hi _ r ops gen mem hx => ?_
    obtain ⟨os, rfl, hx⟩ := hx
    have hbase : Own.base ⟨gen, l₁.db, l₁.log ++ os.map .op, mem, l₁.done⟩ =
        ⟨gen, l₁.base.db, l₁.base.log ++ os, mem, l₁.base.done⟩ := by
      simp [Own.base]
    refine ih r (hp.2 r) ?_ fun o l' hi' hq hrows hdone => hQ o l' hi' hq ?_ ?_
    · rw [hbase]
      refine h.2 r _ ⟨l₁.base, Relies.base he, trivial, trivial, os, gen, mem, ?_, rfl⟩
      rw [Own.base_view]
      exact hx
    · rw [hrows, TabledOp.rows_append, TabledOp.rows_map, List.append_nil, he.own.1]
    · exact hdone.trans he.own.2.2.1

/-- The rule for the insert of a row. -/
theorem rg_insertRow {row : K} {k : Unit → TxProg (TabledStmt S K) (TabledStmt.Resp R) X α}
    {Q : Except X α → Own (Tabled D K) (TabledOp O K) G M → Prop}
    (h : ∀ l₁, pr.Relies i l l₁ → pr.inv l₁.gen l₁.db →
      pr.rg i Q (k ()) (l₁.write [.insert row])) : pr.rg i Q ((insertRow row).bind k) l := by
  refine Protocol.rg_stmt fun l₁ he hi _ r ops gen mem hx => ?_
  obtain ⟨rfl, rfl, rfl⟩ := hx
  exact h l₁ he hi

end Lift

/-- The statements of the larger store, computed. -/
def Handler.tabled {st : Store S R D O G M} {Ω : Type} (h : Handler st Ω) (K : Type) :
    Handler (st.tabled K) Ω where
  answer ω s g m d :=
    match s with
    | .stmt s =>
      ((h.answer ω s g m d.base).1, (h.answer ω s g m d.base).2.1.map .op,
        (h.answer ω s g m d.base).2.2.1, (h.answer ω s g m d.base).2.2.2.1,
        (h.answer ω s g m d.base).2.2.2.2)
    | .insert row => ((), [.insert row], g, m, ω)
  ok ω s g m d := by
    cases s with
    | stmt s => exact ⟨_, rfl, h.ok ω s g m d.base⟩
    | insert row => exact ⟨rfl, rfl, rfl⟩
  compat l l' := h.compat (TabledOp.ops l) (TabledOp.ops l')
  compat_ok hc := h.compat_ok hc

end Store

namespace Store.Protocol

variable {ι S : Type} {R : S → Type} {D O G M X α : Type} [Preorder G] {st : Store S R D O G M}
variable {pr : Protocol st ι} {i : ι} {Q Q' : Except X α → Own D O G M → Prop}

/-- Two facts about one program. -/
theorem rg_and {p : TxProg S R X α} {l : Own D O G M} (h : pr.rg i Q p l) (h' : pr.rg i Q' p l) :
    pr.rg i (fun o l => Q o l ∧ Q' o l) p l := by
  induction p generalizing l with
  | ret a => exact fun l' he hi => ⟨h l' he hi, h' l' he hi⟩
  | raise x => exact fun l' he hi => ⟨h l' he hi, h' l' he hi⟩
  | act e k ih => exact ⟨h.1, fun r l' hs => ih r (h.2 r l' hs) (h'.2 r l' hs)⟩

end Store.Protocol

end ChatBackend
