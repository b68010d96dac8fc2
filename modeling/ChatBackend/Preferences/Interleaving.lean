import ChatBackend.Foundations.Guarantee
import ChatBackend.Preferences.Service

/-!
# Patches under interleaving

A patch loads the row of its user, and other patches may be committed before its own. An `UPDATE` sets the
columns that have changed and no other, so that patches of different columns do not undo each other
(`patch_kept`); and a column only ever holds a value that a committed patch of its user has provided, or
its first one (`columns_traced`). A patch that fails has lost the race for the first row of its user, or
has brought a dictionary that JSONB does not accept (`patch_conflict`).
-/

namespace ChatBackend.Preferences

open Prog Store

variable {V : Type} {py : Dicts V}

abbrev PreferencesOwn (V : Type) : Type := Own (PreferencesDb V) (PreferencesOp V) Unit Unit

/-- What a request of the user `u` may commit. -/
inductive May (py : Dicts V) (d : PreferencesDb V) (u : ℕ) (r : PreferencesRequest V) :
    List (PreferencesOp V) → Prop
  | nil : May py d u r []
  | insert {row : UserPreferences V} (hnew : d.rows u = none)
      (hrow : ∀ c, row.get c = ((r.provides c).getD ((defaultRow py).get c))) :
      May py d u r [.insert u row]
  | update {p : PreferencesPatch V} (hrow : (d.rows u).isSome)
      (hp : ∀ c v, p.get c = some v → r.provides c = some v) : May py d u r [.update u p]

section Commit

variable {d : PreferencesDb V} {u v : ℕ} {r : PreferencesRequest V} {log : List (PreferencesOp V)}

/-- The row of another user stays. -/
theorem May.frame (h : May py d u r log) (hv : v ≠ u) :
    ((preferencesStore py).view log d).rows v = d.rows v := by
  cases h with
  | nil => rfl
  | insert | update => exact Function.update_of_ne hv _ _

/-- A row stays. -/
theorem May.isSome (h : May py d u r log) (hrow : (d.rows v).isSome) :
    (((preferencesStore py).view log d).rows v).isSome := by
  by_cases hv : v = u
  · subst hv
    cases h with
    | nil => exact hrow
    | insert => simp [preferencesStore, PreferencesOp.apply]
    | update => simpa [preferencesStore, PreferencesOp.apply] using hrow
  · rwa [h.frame hv]

/-- A column that the request does not provide keeps its value. -/
theorem May.column {c : Column} {row : UserPreferences V} (h : May py d u r log)
    (hc : r.provides c = none) (hrow : d.rows u = some row) :
    ∃ row', ((preferencesStore py).view log d).rows u = some row' ∧ row'.get c = row.get c := by
  cases h with
  | nil => exact ⟨row, hrow, rfl⟩
  | insert hnew => simp [hrow] at hnew
  | @update p _ hp =>
    refine ⟨row.change p, by simp [preferencesStore, PreferencesOp.apply, hrow], ?_⟩
    have hnone : p.get c = none := by
      cases hget : p.get c with
      | none => rfl
      | some a => simp [hp c a hget] at hc
    simp [hnone]

/-- A column has its old value, or one that the request provides; a row that is new has the defaults for
the old values. -/
theorem May.traced (h : May py d u r log) {row : UserPreferences V}
    (hrow : ((preferencesStore py).view log d).rows u = some row) (c : Column) :
    row.get c = ((d.rows u).getD (defaultRow py)).get c ∨
      log ≠ [] ∧ r.provides c = some (row.get c) := by
  cases h with
  | nil =>
    have hrow : d.rows u = some row := hrow
    simp [hrow]
  | @insert row' hnew hrow' =>
    obtain rfl : row' = row := by simpa [preferencesStore, PreferencesOp.apply] using hrow
    rw [hnew, hrow' c]
    cases hget : r.provides c with
    | none => simp
    | some a => simp
  | @update p hsome hp =>
    obtain ⟨old, hold⟩ := Option.isSome_iff_exists.1 hsome
    obtain rfl : old.change p = row := by
      simpa [preferencesStore, PreferencesOp.apply, hold] using hrow
    cases hget : p.get c with
    | none => simp [hold, hget]
    | some a => simp [hget, hp c a hget]

/-- A request that has committed nothing for its user has left the row alone. -/
theorem May.unchanged (h : May py d u r log) :
    ((preferencesStore py).view log d).rows u = d.rows u ∨ log ≠ [] := by
  cases h with
  | nil => exact .inl rfl
  | insert | update => exact .inr (by simp)

end Commit

/-! ## One request among others -/

section Request

variable {ι : Type} {d₀ : PreferencesDb V} {user : ι → ℕ} {requests : ι → PreferencesRequest V} {i : ι}
variable {l l' : PreferencesOwn V}

/-- The protocol of requests of the users: rows stay. -/
def preferences (py : Dicts V) (d₀ : PreferencesDb V) (user : ι → ℕ)
    (requests : ι → PreferencesRequest V) : Protocol (preferencesStore py) ι where
  inv _ d := ∀ u, (d₀.rows u).isSome → (d.rows u).isSome
  may i _ d log := May py d (user i) (requests i) log
  test _ _ _ := True
  inv_gen _ h := h
  inv_commit h hm u hu := hm.isSome (h u hu)

/-- No other request of the user provides the column. -/
def Alone (user : ι → ℕ) (requests : ι → PreferencesRequest V) (i : ι) (c : Column) : Prop :=
  ∀ j, j ≠ i → user j = user i → (requests j).provides c = none

/-- The column `c` of the user `u` holds the value `a`. -/
def Holds (u : ℕ) (c : Column) (a : c.Value V) (l : PreferencesOwn V) : Prop :=
  ∃ row, l.db.rows u = some row ∧ row.get c = a

theorem holds_stable {c : Column} {a : c.Value V} (hc : Alone user requests i c) :
    Protocol.Stable (preferences py d₀ user requests) i (Holds (user i) c a) := by
  rintro l l' - ⟨row, hrow, rfl⟩ hr
  cases hr with
  | gen => exact ⟨row, hrow, rfl⟩
  | @commit j log hj hcompat hm =>
    by_cases hu : user i = user j
    · have hm : May py l.db (user j) (requests j) log := hm
      rw [← hu] at hm
      exact hm.column (hc j hj hu.symm) hrow
    · exact ⟨row, (hm.frame hu).trans hrow, rfl⟩

theorem isSome_stable (u : ℕ) : Protocol.Stable (preferences py d₀ user requests) i
    fun l => (l.db.rows u).isSome := by
  intro l l' _ h hr
  cases hr with
  | gen => exact h
  | commit hj hc hm => exact hm.isSome h

/-- The open transaction has inserted the row of its user, and no other has. -/
def Inserting (i : ι) (user : ι → ℕ) (row : UserPreferences V) (l : PreferencesOwn V) : Prop :=
  l.log = [.insert (user i) row] ∧ l.db.rows (user i) = none

theorem inserting_stable (row : UserPreferences V) :
    Protocol.Stable (preferences py d₀ user requests) i (Inserting i user row) := by
  rintro l l' - ⟨hlog, hnone⟩ hr
  cases hr with
  | gen => exact ⟨hlog, hnone⟩
  | @commit j log hj hc hm =>
    refine ⟨hlog, ?_⟩
    have hc : PreferencesOp.Apart l.log log := hc
    rw [hlog] at hc
    have hfree := hc (user i) (by simp [PreferencesOp.lock])
    by_cases hu : user i = user j
    · have hm : May py l.db (user j) (requests j) log := hm
      cases hm with
      | nil => exact hnone
      | insert | update => simp [PreferencesOp.lock, hu] at hfree
    · exact (hm.frame hu).trans hnone

/-- What the request provides for a column that no other request provides is there, or what is there is
equal for a flush. -/
def Settled (py : Dicts V) (user : ι → ℕ) (requests : ι → PreferencesRequest V) (i : ι)
    (l : PreferencesOwn V) : Prop :=
  ∀ c v, (requests i).provides c = some v → Alone user requests i c →
    ∃ a, Holds (user i) c a l ∧ (a = v ∨ c.eq py v a = true)

theorem settled_stable : Protocol.Stable (preferences py d₀ user requests) i
    (Settled py user requests i) := by
  intro l l' hinv h hr c v hv hc
  obtain ⟨a, ha, heq⟩ := h c v hv hc
  exact ⟨a, holds_stable hc l l' hinv ha hr, heq⟩

/-- The row that was loaded: the columns of the request alone are as they were. -/
def Loaded (user : ι → ℕ) (requests : ι → PreferencesRequest V) (i : ι) (row : UserPreferences V)
    (l : PreferencesOwn V) : Prop :=
  (l.db.rows (user i)).isSome ∧ ∀ c, Alone user requests i c → Holds (user i) c (row.get c) l

theorem loaded_stable (row : UserPreferences V) :
    Protocol.Stable (preferences py d₀ user requests) i (Loaded user requests i row) :=
  fun l l' hinv h hr => ⟨isSome_stable (user i) l l' hinv h.1 hr,
    fun c hc => holds_stable hc l l' hinv (h.2 c hc) hr⟩

/-- The request has brought a dictionary that JSONB does not accept. -/
def Unstorable (py : Dicts V) (r : PreferencesRequest V) : Prop :=
  ∃ v : V, r.provides .codeDefaults = some v ∧ py.storable v = false

/-- What has been committed when a request has ended. -/
def Ended (py : Dicts V) (d₀ : PreferencesDb V) (user : ι → ℕ) (requests : ι → PreferencesRequest V)
    (i : ι) : Except PreferencesError (PreferencesView V) → PreferencesOwn V → Prop
  | .ok _, l => Settled py user requests i l
  | .error x, l => l.done = [] ∧
      (x = .integrityError ∧ (l.db.rows (user i)).isSome ∧ d₀.rows (user i) = none ∨
        x = .dataError ∧ Unstorable py (requests i))

/-- The rule for a statement. -/
theorem rg_preferencesStmt {α : Type} {s : PreferencesStmt V} {k : s.Resp → PreferencesProg V α}
    {Q : Except PreferencesError α → PreferencesOwn V → Prop}
    (h : ∀ l₁, (preferences py d₀ user requests).Relies i l l₁ →
      (preferences py d₀ user requests).inv l₁.gen l₁.db →
      (preferences py d₀ user requests).rg i Q (k (s.run py (l₁.view (preferencesStore py))).1)
        (l₁.write (s.run py (l₁.view (preferencesStore py))).2)) :
    (preferences py d₀ user requests).rg i Q (.act (.stmt s) k) l := by
  refine Protocol.rg_stmt fun l₁ he hi _ r ops gen mem hx => ?_
  have hrun : s.run py (l₁.view (preferencesStore py)) = (r, ops) := hx
  have := h l₁ he hi
  rw [hrun] at this
  exact this

theorem view_eq (h : l.log = []) : l.view (preferencesStore py) = l.db := by
  rw [Own.view, h, Store.view_nil]

/-- A request that has answered. -/
theorem rg_settled {a : PreferencesView V} (hinv : (preferences py d₀ user requests).inv l.gen l.db)
    (hlog : l.log = []) (h : Settled py user requests i l) :
    (preferences py d₀ user requests).rg i (Ended py d₀ user requests i)
      (TxProg.commit.bind fun _ => .ret a) l := by
  refine Protocol.rg_commit fun l₁ he hi _ => ?_
  have hlog₁ : l₁.log = [] := he.own.1.trans hlog
  have h₁ : Settled py user requests i l₁ := settled_stable.relies hinv h he
  have hview : l₁.view (preferencesStore py) = l₁.db := view_eq hlog₁
  rw [hlog₁, hview]
  exact ⟨.nil, Protocol.rg_ret fun l₂ he₂ _ =>
    settled_stable.relies (l := ⟨l₁.gen, l₁.db, [], l₁.mem, l₁.done ++ [[]]⟩) hi h₁ he₂⟩

/-- What the body of a request leaves for the end of its session. -/
def Scoped (py : Dicts V) (d₀ : PreferencesDb V) (user : ι → ℕ) (requests : ι → PreferencesRequest V)
    (i : ι) : Except PreferencesError (PreferencesView V) → PreferencesOwn V → Prop
  | .ok _, l => l.log = [] ∧ Settled py user requests i l
  | .error x, l => Ended py d₀ user requests i (.error x) l

/-- The answer, after the commit of the body. -/
theorem rg_answer {a : PreferencesView V} (hinv : (preferences py d₀ user requests).inv l.gen l.db)
    (hlog : l.log = []) (h : Settled py user requests i l) :
    (preferences py d₀ user requests).rg i (Scoped py d₀ user requests i) (.ret a) l :=
  Protocol.rg_ret fun _ he _ => ⟨he.own.1.trans hlog, settled_stable.relies hinv h he⟩

/-- The end of a request whose dictionary is not accepted. -/
theorem rg_refused (hdone : l.done = []) (h : Unstorable py (requests i)) :
    (preferences py d₀ user requests).rg i (Scoped py d₀ user requests i)
      (.raise .dataError : PreferencesProg V (PreferencesView V)) l :=
  Protocol.rg_raise fun _ he _ => ⟨he.own.2.2.1.trans hdone, .inr ⟨rfl, h⟩⟩

theorem unstorable_initial {p : PreferencesPatch V} (hreq : requests i = .patch p)
    (h : py.storable (p.initial py).codeDefaults = false) : Unstorable py (requests i) := by
  rw [hreq]
  cases hv : p.codeDefaults with
  | none =>
    have hempty : (p.initial py).codeDefaults = py.empty := by
      simp [PreferencesPatch.initial, defaults, hv]
    rw [hempty, py.storable_empty] at h
    cases h
  | some v =>
    refine ⟨v, hv, ?_⟩
    simpa [PreferencesPatch.initial, hv] using h

theorem unstorable_changes {p : PreferencesPatch V} {row : UserPreferences V}
    (hreq : requests i = .patch p) (h : (p.changes py row).codeDefaults.all py.storable = false) :
    Unstorable py (requests i) := by
  rw [hreq]
  cases hv : (p.changes py row).codeDefaults with
  | none =>
    rw [hv] at h
    cases h
  | some v =>
    rw [hv] at h
    exact ⟨v, (Option.filter_eq_some_iff.1 hv).1, h⟩

/-- The first row of a user. -/
theorem insert_rg {p : PreferencesPatch V} (hreq : requests i = .patch p)
    (hlog : l.log = []) (hdone : l.done = []) (hnew : d₀.rows (user i) = none) :
    (preferences py d₀ user requests).rg i (Scoped py d₀ user requests i)
      ((insertRow (user i) (p.initial py)).bind fun _ =>
        TxProg.commit.bind fun _ => .ret (p.initial py).toView) l := by
  simp only [insertRow, TxProg.stmt, bind_eq, pure_eq, throw_eq, act_bind, ret_bind]
  refine rg_preferencesStmt fun l₁ he hi => ?_
  have hlog₁ : l₁.log = [] := he.own.1.trans hlog
  rw [view_eq hlog₁]
  cases hstore : py.storable (p.initial py).codeDefaults with
  | false =>
    simp only [PreferencesStmt.run, hstore, if_true, Own.write_nil, raise_bind]
    exact rg_refused (he.own.2.2.1.trans hdone) (unstorable_initial hreq hstore)
  | true =>
  cases hrow : l₁.db.rows (user i) with
  | some row =>
    simp only [PreferencesStmt.run, hstore, hrow, Option.isSome_some, if_true, Own.write_nil,
      Bool.true_eq_false, if_false, raise_bind]
    refine Protocol.rg_raise fun l₂ he₂ _ => ⟨?_, .inl ⟨rfl, ?_, hnew⟩⟩
    · rw [he₂.own.2.2.1, he.own.2.2.1, hdone]
    · exact (isSome_stable (user i)).relies hi (by simp [hrow]) he₂
  | none =>
    simp only [PreferencesStmt.run, hstore, hrow, Option.isSome_none, Bool.false_eq_true,
      Bool.true_eq_false, if_false, ret_bind]
    refine Protocol.rg_commit fun l₂ he₂ hi₂ _ => ?_
    have hins : Inserting i user (p.initial py) l₂ :=
      (inserting_stable _).relies (l := l₁.write _) hi ⟨by simp [Own.write, hlog₁], hrow⟩ he₂
    have hmay : May py l₂.db (user i) (requests i) l₂.log := by
      rw [hins.1]
      exact .insert hins.2 fun c => by simp [hreq, PreferencesRequest.provides]
    refine ⟨hmay, rg_answer (fun u hu => hmay.isSome (hi₂ u hu)) rfl fun c v hv _ => ?_⟩
    refine ⟨v, ⟨p.initial py, ?_, ?_⟩, .inl rfl⟩
    · simp [Own.view, hins.1, preferencesStore, PreferencesOp.apply]
    · have hv : p.get c = some v := by simpa [hreq, PreferencesRequest.provides] using hv
      simp [hv]

/-- The row has the columns of the request, once the changes are there. -/
theorem Loaded.settled {p : PreferencesPatch V} {row : UserPreferences V}
    (hreq : requests i = .patch p) (h : Loaded user requests i row l)
    (hdb : l'.db.rows (user i) =
      (l.db.rows (user i)).map fun row' => row'.change (p.changes py row)) :
    Settled py user requests i l' := by
  intro c v hv hc
  have hv : p.get c = some v := by simpa [hreq, PreferencesRequest.provides] using hv
  obtain ⟨row', hrow', hget⟩ := h.2 c hc
  refine ⟨(row'.change (p.changes py row)).get c, ⟨_, by simp [hdb, hrow'], rfl⟩, ?_⟩
  cases heq : c.eq py v (row.get c) with
  | true => simp [hv, Option.filter, heq, hget]
  | false => simp [hv, Option.filter, heq]

/-- Without changes the row is as it should be. -/
theorem change_of_isEmpty {q : PreferencesPatch V} (h : q.isEmpty = true) (row : UserPreferences V) :
    row.change q = row := by
  simp only [PreferencesPatch.isEmpty, Bool.and_eq_true, Option.isNone_iff_eq_none] at h
  simp [UserPreferences.change, h]

/-- The patch of a row that is there. -/
theorem update_rg {p : PreferencesPatch V} {row : UserPreferences V} (hreq : requests i = .patch p)
    (hinv : (preferences py d₀ user requests).inv l.gen l.db) (hlog : l.log = []) (hdone : l.done = [])
    (h : Loaded user requests i row l) :
    (preferences py d₀ user requests).rg i (Scoped py d₀ user requests i)
      ((updateRow (user i) (p.changes py row)).bind fun _ =>
        TxProg.commit.bind fun _ => .ret (row.change p).toView) l := by
  unfold updateRow
  split
  · rename_i hempty
    refine Protocol.rg_commit fun l₁ he hi _ => ?_
    have hlog₁ : l₁.log = [] := he.own.1.trans hlog
    have h₁ : Loaded user requests i row l₁ := (loaded_stable row).relies hinv h he
    rw [view_eq hlog₁, hlog₁]
    refine ⟨.nil, rg_answer hi rfl (h₁.settled hreq ?_)⟩
    simp [change_of_isEmpty hempty]
  · simp only [TxProg.stmt, bind_eq, pure_eq, throw_eq, act_bind, ret_bind]
    refine rg_preferencesStmt fun l₁ he hi => ?_
    have hlog₁ : l₁.log = [] := he.own.1.trans hlog
    have h₁ : Loaded user requests i row l₁ := (loaded_stable row).relies hinv h he
    rw [view_eq hlog₁]
    cases hstore : (p.changes py row).codeDefaults.all py.storable with
    | false =>
      simp only [PreferencesStmt.run, hstore, if_true, Own.write_nil, raise_bind]
      exact rg_refused (he.own.2.2.1.trans hdone) (unstorable_changes hreq hstore)
    | true =>
    simp only [PreferencesStmt.run, hstore, h₁.1, if_true, Bool.true_eq_false, if_false, ret_bind]
    refine Protocol.rg_commit fun l₂ he₂ hi₂ _ => ?_
    have hlog₂ : l₂.log = [.update (user i) (p.changes py row)] :=
      he₂.own.1.trans (by simp [Own.write, hlog₁])
    have h₂ : Loaded user requests i row l₂ :=
      (loaded_stable row).relies (l := l₁.write _) hi h₁ he₂
    have hmay : May py l₂.db (user i) (requests i) l₂.log := by
      rw [hlog₂]
      refine .update h₂.1 fun c v hv => ?_
      rw [get_changes] at hv
      simpa [hreq, PreferencesRequest.provides] using (Option.filter_eq_some_iff.1 hv).1
    refine ⟨hmay, rg_answer (fun u hu => hmay.isSome (hi₂ u hu)) rfl (h₂.settled hreq ?_)⟩
    simp [Own.view, hlog₂, preferencesStore, PreferencesOp.apply]

/-- **One request among others.** -/
theorem serve_rg (hinv : (preferences py d₀ user requests).inv l.gen l.db) (hlog : l.log = [])
    (hdone : l.done = []) : (preferences py d₀ user requests).rg i (Ended py d₀ user requests i)
      ((requests i).serve py (user i)) l := by
  refine Protocol.rg_sessionScope hinv (Protocol.rg_mono
    (Q := Scoped py d₀ user requests i) (fun o l' hi hq => ?_) ?_)
  · cases o with
    | ok a => exact rg_settled hi hq.1 hq.2
    | error x =>
      obtain ⟨hdone', hcause⟩ := hq
      refine Protocol.rg_rollback fun l₁ he₁ hi₁ => Protocol.rg_raise fun l₂ he₂ _ => ⟨?_, ?_⟩
      · rw [he₂.own.2.2.1, ← hdone']
        exact he₁.own.2.2.1
      · refine hcause.imp_left ?_
        rintro ⟨rfl, hsome, hnew⟩
        have hsome₁ : (l₁.db.rows (user i)).isSome := (isSome_stable (user i)).relies hi hsome he₁
        refine ⟨rfl, ?_, hnew⟩
        exact (isSome_stable (user i)).relies (l := ⟨l₁.gen, l₁.db, [], l₁.mem, l₁.done⟩) hi₁ hsome₁ he₂
  cases hreq : requests i with
  | get =>
    simp only [PreferencesRequest.prog, Preferences.get, TxProg.stmt, bind_eq, pure_eq, act_bind,
      ret_bind]
    refine rg_preferencesStmt fun l₁ he hi => ?_
    have hlog₁ : l₁.log = [] := he.own.1.trans hlog
    simp only [PreferencesStmt.run, Own.write_nil]
    split <;> exact rg_answer hi hlog₁ fun c v hv => by simp [hreq, PreferencesRequest.provides] at hv
  | patch p =>
    simp only [PreferencesRequest.prog, patch, TxProg.stmt, bind_eq, pure_eq, act_bind, ret_bind]
    refine rg_preferencesStmt fun l₁ he hi => ?_
    have hlog₁ : l₁.log = [] := he.own.1.trans hlog
    have hdone₁ : l₁.done = [] := he.own.2.2.1.trans hdone
    rw [view_eq hlog₁]
    simp only [PreferencesStmt.run, Own.write_nil]
    cases hrow : l₁.db.rows (user i) with
    | none =>
      refine insert_rg hreq hlog₁ hdone₁ ?_
      by_contra hsome
      have := hi (user i) (Option.isSome_iff_ne_none.2 hsome)
      simp [hrow] at this
    | some row =>
      exact update_rg hreq hi hlog₁ hdone₁ ⟨by simp [hrow], fun c _ => ⟨row, hrow, rfl⟩⟩

end Request

/-! ## All requests -/

abbrev PreferencesPool (V ι : Type) : Type := Pool ι (PreferencesStmt V) PreferencesStmt.Resp
  (PreferencesDb V) (PreferencesOp V) Unit Unit PreferencesError (PreferencesView V)

/-- Requests of the users, about to be served. -/
def serveAll {ι : Type} (py : Dicts V) (d : PreferencesDb V) (user : ι → ℕ)
    (requests : ι → PreferencesRequest V) : PreferencesPool V ι :=
  Pool.begin () d () fun i => (requests i).serve py (user i)

section Run

variable {ι : Type} {d₀ d : PreferencesDb V} {user : ι → ℕ} {requests : ι → PreferencesRequest V}
variable {hist : List (ι × List (PreferencesOp V))} {P : PreferencesPool V ι}

/-- What the commits of a history have made of a column. -/
theorem commits_traced (h : Store.Commits (preferencesStore py) (preferences py d₀ user requests).may d₀
    hist d) {u : ℕ} {row : UserPreferences V} (hrow : d.rows u = some row) (c : Column) :
    row.get c = ((d₀.rows u).getD (defaultRow py)).get c ∨
      ∃ x ∈ hist, user x.1 = u ∧ x.2 ≠ [] ∧ (requests x.1).provides c = some (row.get c) := by
  induction h generalizing row with
  | nil => exact .inl (by simp [hrow])
  | @snoc hist d i g log h hm ih =>
    have hm : May py d (user i) (requests i) log := hm
    have hold : ∀ row₀, row.get c = row₀.get c → d.rows u = some row₀ ∨
        d.rows u = none ∧ row₀ = defaultRow py → row.get c = ((d₀.rows u).getD (defaultRow py)).get c ∨
          ∃ x ∈ hist ++ [(i, log)], user x.1 = u ∧ x.2 ≠ [] ∧
            (requests x.1).provides c = some (row.get c) := by
      rintro row₀ hget (hrow₀ | ⟨hnone, rfl⟩)
      · rw [hget]
        refine (ih hrow₀).imp_right ?_
        rintro ⟨x, hx, hrest⟩
        exact ⟨x, List.mem_append_left _ hx, hrest⟩
      · have hnone₀ : d₀.rows u = none := by
          by_contra hsome
          have := h.rel (r := fun d d' => (d.rows u).isSome → (d'.rows u).isSome) (fun _ h => h)
            (fun h h' hd => h' (h hd)) (fun _ _ _ _ hm => hm.isSome)
            (Option.isSome_iff_ne_none.2 hsome)
          simp [hnone] at this
        simp [hnone₀, hget]
    by_cases hu : u = user i
    · subst hu
      obtain hget | ⟨hne, hprov⟩ := hm.traced hrow c
      · cases hrow₀ : d.rows (user i) with
        | some row₀ => exact hold row₀ (by simpa [hrow₀] using hget) (.inl hrow₀)
        | none => exact hold _ (by simpa [hrow₀] using hget) (.inr ⟨hrow₀, rfl⟩)
      · exact .inr ⟨_, List.mem_append_right _ (List.mem_singleton_self _), rfl, hne, hprov⟩
    · exact hold row rfl (.inl ((hm.frame hu).symm.trans hrow))

/-- A row that has come has been committed by a request of its user. -/
theorem commits_row (h : Store.Commits (preferencesStore py) (preferences py d₀ user requests).may d₀
    hist d) {u : ℕ} (hnone : d₀.rows u = none) (hsome : (d.rows u).isSome) :
    ∃ x ∈ hist, user x.1 = u ∧ x.2 ≠ [] := by
  induction h with
  | nil => simp [hnone] at hsome
  | @snoc hist d i g log h hm ih =>
    have hm : May py d (user i) (requests i) log := hm
    by_cases hu : u = user i ∧ log ≠ []
    · exact ⟨_, List.mem_append_right _ (List.mem_singleton_self _), hu.1.symm, hu.2⟩
    · have hsame : ((preferencesStore py).view log d).rows u = d.rows u := by
        by_cases hui : u = user i
        · subst hui
          exact hm.unchanged.resolve_right fun hne => hu ⟨rfl, hne⟩
        · exact hm.frame hui
      obtain ⟨x, hx, hrest⟩ := ih (hsame ▸ hsome)
      exact ⟨x, List.mem_append_left _ hx, hrest⟩

variable [DecidableEq ι]

theorem serveAll_keeps (h : (serveAll py d₀ user requests).Reaches (preferencesStore py) P) :
    Pool.Keeps (preferences py d₀ user requests) (Ended py d₀ user requests) d₀ P :=
  Pool.ReachesIf.keeps (h.reachesIf fun _ _ _ => trivial)
    (Pool.begin_keeps (fun _ h => h) fun _ => serve_rg (fun _ h => h) rfl rfl)

/-- **Traced.** In every state that any interleaving of requests commits, a column of a row holds its
first value (the default, where there was no row), or one that a request of this user, which has
committed a change, has provided for this column. -/
theorem columns_traced (h : (serveAll py d₀ user requests).Reaches (preferencesStore py) P) {u : ℕ}
    {row : UserPreferences V} (hrow : P.db.rows u = some row) (c : Column) :
    row.get c = ((d₀.rows u).getD (defaultRow py)).get c ∨
      ∃ x ∈ P.hist, user x.1 = u ∧ x.2 ≠ [] ∧ (requests x.1).provides c = some (row.get c) :=
  commits_traced (serveAll_keeps h).run hrow c

/-- **No lost update.** When a patch has been answered, a column that it has provided holds its value, or
one that is equal to it, in every later state, whatever other requests are committed before and after,
unless another patch of the user provides the same column. -/
theorem patch_kept (h : (serveAll py d₀ user requests).Reaches (preferencesStore py) P) {i : ι}
    {p : PreferencesPatch V} {view : PreferencesView V} {c : Column} {v : c.Value V}
    (hreq : requests i = .patch p) (hi : (P.thr i).prog = some (.ret view)) (hv : p.get c = some v)
    (hc : Alone user requests i c) :
    ∃ row, P.db.rows (user i) = some row ∧ (row.get c = v ∨ c.eq py v (row.get c) = true) := by
  have hended : Settled py user requests i (P.own i) := (serveAll_keeps h).result hi
  obtain ⟨a, ⟨row, hrow, rfl⟩, heq⟩ := hended c v (by simp [hreq, PreferencesRequest.provides, hv]) hc
  exact ⟨row, hrow, heq⟩

/-- **A request that fails** has committed nothing. It has lost the race for the first row of its user:
it raises the integrity error, and another request of its user has committed the row. Or it has brought
a dictionary that JSONB does not accept. -/
theorem patch_conflict (h : (serveAll py d₀ user requests).Reaches (preferencesStore py) P) {i : ι}
    {x : PreferencesError} (hi : (P.thr i).prog = some (.raise x)) :
    P.commitsOf i = [] ∧
      (x = .integrityError ∧ d₀.rows (user i) = none ∧
          (∃ j log, j ≠ i ∧ user j = user i ∧ log ≠ [] ∧ log ∈ P.commitsOf j) ∨
        x = .dataError ∧ Unstorable py (requests i)) := by
  have hkeeps := serveAll_keeps h
  obtain ⟨hdone, hcause⟩ : Ended py d₀ user requests i (.error x) (P.own i) :=
    hkeeps.thr i _ hi _ .refl hkeeps.inv
  have hdone : P.commitsOf i = [] := hdone
  refine ⟨hdone, hcause.imp_left ?_⟩
  rintro ⟨hx, hsome, hnone⟩
  obtain ⟨y, hy, huser, hne⟩ := commits_row hkeeps.run hnone hsome
  have hmem : y.2 ∈ P.commitsOf y.1 := List.mem_map.2 ⟨y, List.mem_filter.2 ⟨hy, by simp⟩, rfl⟩
  refine ⟨hx, hnone, y.1, y.2, fun hyi => ?_, huser, hne, hmem⟩
  rw [hyi, hdone] at hmem
  cases hmem

end Run

/-! ## Runs -/

/-- The statements compute their answers. -/
def preferencesHandler (py : Dicts V) : Handler (preferencesStore py) Unit where
  answer ω s _ _ d := ((s.run py d).1, (s.run py d).2, (), (), ω)
  ok _ _ _ _ _ := rfl
  compat l l' := (l.map PreferencesOp.lock).all fun u => u ∉ l'.map PreferencesOp.lock
  compat_ok h u hu := by simpa using List.all_eq_true.1 h u hu

/-- Dictionaries of texts, in the order of their keys. -/
def textDicts : Dicts (List (String × String)) where
  empty := []
  eq a b := a = b
  storable kvs := kvs.all fun kv => nulFree kv.1 && nulFree kv.2
  storable_empty := rfl

/-- Two patches of user 7, of different columns. -/
def twoPatches : Fin 2 → PreferencesRequest (List (String × String))
  | 0 => .patch ⟨none, some .search, none, none⟩
  | 1 => .patch ⟨none, none, some true, some [("language", "lean")]⟩

/-- User 7 has a row. -/
def oneRow : PreferencesDb (List (String × String)) :=
  ⟨fun u => if u = 7 then some ⟨.code, .smart, false, []⟩ else none⟩

/-- The first patch has been answered, and the row has the columns of both. -/
def bothKept (P : PreferencesPool (List (String × String)) (Fin 2)) : Bool :=
  (P.db.rows 7).any (fun row => row.defaultDialogMode = .search && row.notificationsEnabled &&
    row.codeDefaults = [("language", "lean")]) &&
    match (P.thr 0).prog with
      | some (.ret _) => true
      | _ => false

/-- Both patches load the row before one of them is committed. -/
theorem bothKept_reached : ∃ P, (serveAll textDicts oneRow (fun _ => 7) twoPatches).Reaches
    (preferencesStore textDicts) P ∧ bothKept P = true := by
  have hplay : (Pool.play (preferencesHandler textDicts) [0, 1] [0, 1, 0, 0, 0, 1, 1]
      (serveAll textDicts oneRow (fun _ => 7) twoPatches) ()).any
      (fun r => bothKept r.1) = true := by decide +kernel
  exact Pool.exists_of_play (by decide) hplay

theorem columns_traced_race : ∃ P row, bothKept P = true ∧ P.db.rows 7 = some row ∧
    ∀ c, row.get c = ((oneRow.rows 7).getD (defaultRow textDicts)).get c ∨
      ∃ x ∈ P.hist, x.2 ≠ [] ∧ (twoPatches x.1).provides c = some (row.get c) := by
  obtain ⟨P, hP, hkept⟩ := bothKept_reached
  have hkept' := hkept
  simp only [bothKept, Bool.and_eq_true, Option.any_eq_true] at hkept'
  obtain ⟨⟨row, hrow, -⟩, -⟩ := hkept'
  refine ⟨P, row, hkept, hrow, fun c => (columns_traced hP hrow c).imp_right ?_⟩
  rintro ⟨x, hx, -, hrest⟩
  exact ⟨x, hx, hrest⟩

theorem patch_kept_race : ∃ P row, bothKept P = true ∧ P.db.rows 7 = some row ∧
    row.defaultDialogMode = .search := by
  obtain ⟨P, hP, hkept⟩ := bothKept_reached
  have hkept' := hkept
  simp only [bothKept, Bool.and_eq_true] at hkept'
  have hlast := hkept'.2
  split at hlast
  · rename_i view hview
    obtain ⟨row, hrow, heq⟩ := patch_kept hP (i := 0) (c := .defaultDialogMode) (v := DialogMode.search)
      rfl hview rfl fun j hj _ => by
        have : j = 1 := by omega
        subst this
        rfl
    refine ⟨P, row, hkept, hrow, heq.elim id fun h => ?_⟩
    exact (of_decide_eq_true h).symm
  · cases hlast

/-- No user has a row. -/
def noRow : PreferencesDb (List (String × String)) := ⟨fun _ => none⟩

/-- Two patches of user 7, and one with a text that JSONB does not accept. -/
def threePatches : Fin 3 → PreferencesRequest (List (String × String))
  | 0 => .patch ⟨none, some .search, none, none⟩
  | 1 => .patch ⟨none, none, some true, some [("language", "lean")]⟩
  | 2 => .patch ⟨none, none, none, some [("language", "\x00")]⟩

/-- A request has failed with the error. -/
def failedWith (P : PreferencesPool (List (String × String)) (Fin 3)) (i : Fin 3)
    (x : PreferencesError) : Bool :=
  match (P.thr i).prog with
  | some (.raise y) => y = x
  | _ => false

theorem prog_of_failedWith {P : PreferencesPool (List (String × String)) (Fin 3)} {i : Fin 3}
    {x : PreferencesError} (h : failedWith P i x = true) : (P.thr i).prog = some (.raise x) := by
  unfold failedWith at h
  split at h
  · rename_i y hy
    rw [hy, of_decide_eq_true h]
  · cases h

/-- The second patch and the third have failed, in two ways. -/
def twoFailed (P : PreferencesPool (List (String × String)) (Fin 3)) : Bool :=
  failedWith P 1 .integrityError && failedWith P 2 .dataError

/-- The second patch has lost the race, and the third one is not accepted. -/
theorem patch_conflict_race : ∃ P, (serveAll textDicts noRow (fun _ => 7) threePatches).Reaches
      (preferencesStore textDicts) P ∧
    (P.thr 1).prog = some (.raise .integrityError) ∧ P.commitsOf 1 = [] ∧
    (∃ j log, j ≠ (1 : Fin 3) ∧ log ≠ [] ∧ log ∈ P.commitsOf j) ∧
    (P.thr 2).prog = some (.raise .dataError) ∧ P.commitsOf 2 = [] ∧
    Unstorable textDicts (threePatches 2) := by
  have hplay : (Pool.play (preferencesHandler textDicts) [0, 1, 2] [0, 1, 2, 0, 0, 1, 1, 2, 2]
      (serveAll textDicts noRow (fun _ => 7) threePatches) ()).any
      (fun r => twoFailed r.1) = true := by decide +kernel
  obtain ⟨P, hP, hfailed⟩ := Pool.exists_of_play (by decide) hplay
  rw [twoFailed, Bool.and_eq_true] at hfailed
  have hsecond := prog_of_failedWith hfailed.1
  have hthird := prog_of_failedWith hfailed.2
  obtain ⟨hnone, hrace⟩ := patch_conflict hP hsecond
  obtain ⟨hnone', hrefused⟩ := patch_conflict hP hthird
  obtain ⟨-, -, j, log, hj, -, hlog, hmem⟩ := hrace.resolve_right fun h => nomatch h.1
  obtain ⟨-, hunstorable⟩ := hrefused.resolve_left fun h => nomatch h.1
  exact ⟨P, hP, hsecond, hnone, ⟨j, log, hj, hlog, hmem⟩, hthird, hnone', hunstorable⟩

end ChatBackend.Preferences
