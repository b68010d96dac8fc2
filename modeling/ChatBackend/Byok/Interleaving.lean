import ChatBackend.Byok.Script
import ChatBackend.Foundations.Guarantee

/-!
# Keys under interleaving

The methods load a row, change it and flush the columns that they have changed, and the row is not
locked in between. Where the columns that a flush leaves alone are still those that were loaded, and
the row that is marked as expired still holds the key that was rejected, every row that is committed
is one that `set_key` has determined (`byok_interleaving`). Where they are not, columns of two keys
may be mixed (`byok_interleaving_fails`).
-/

namespace ChatBackend.Byok

open Prog Store
open Chat (Provider)

/-- A request of a user, or a turn in byok mode. -/
inductive ByokRequest : Type
  | setKey (userId : ℕ) (apiKey : String)
  | toggle (userId : ℕ) (enabled : Bool)
  | deleteKey (userId : ℕ)
  | generate (userId : ℕ)

/-- The method of a request. -/
def ByokRequest.method (crypto : Crypto) (settings : ByokSettings) : ByokRequest → ByokProg Unit
  | setKey u apiKey => do
    let _ ← Byok.setKey crypto settings u apiKey
    pure ()
  | toggle u enabled => do
    let _ ← Byok.toggle settings u enabled
    pure ()
  | deleteKey u => do
    let _ ← Byok.deleteKey u
    pure ()
  | generate u => generation crypto settings u

/-- A request, in its session. -/
def ByokRequest.serve (crypto : Crypto) (settings : ByokSettings) (c : ByokRequest) :
    ByokProg Unit := TxProg.sessionScope (c.method crypto settings)

/-- The columns of the key: all but `enabled`. -/
def ByokKey.keyColumns (row : ByokKey) : Sealed × KeyStatus × Option Provider :=
  (row.sealed, row.keyStatus, row.provider)

/-- A flush of the columns of a key makes them what they were meant to be, and the row that is to be
marked as expired holds the key that was rejected. -/
def unshared (d : ByokDb) : TxAct ByokStmt → Bool
  | .stmt (.flush u loaded new) => (d.keys u).all fun row =>
    new.keyColumns = loaded.keyColumns ∨ (row.change (loaded.changeTo new)).keyColumns = new.keyColumns
  | .stmt (.load u (some rejected)) => (d.keys u).all fun row => row.sealed = rejected
  | _ => true

/-! ## Writes to the rows -/

/-- The writes of a log to the rows. -/
def keyOps (log : List ByokOp) : List ByokOp := log.filter fun o => match o with
  | .insertAudit _ => false
  | _ => true

@[simp] theorem keyOps_nil : keyOps [] = [] := rfl

@[simp] theorem keyOps_append (l l' : List ByokOp) : keyOps (l ++ l') = keyOps l ++ keyOps l' :=
  List.filter_append ..

/-- The row that a write stores. -/
def ByokOp.stored : ByokOp → Option ByokKey
  | insertKey _ row => some row
  | updateKey _ _ new => some new
  | _ => none

/-- The status that `set_key` finds for a key: what the provider of its prefix has answered. -/
def Outcome (g : Answers) (apiKey : String) (keyStatus : KeyStatus) : Prop :=
  match detectByokProvider apiKey with
  | none => keyStatus = .invalid
  | some provider => ∃ validation, (provider, apiKey, validation) ∈ g.validated ∧
    keyStatus = validation.keyStatus

theorem Outcome.mono {g g' : Answers} {apiKey : String} {keyStatus : KeyStatus}
    (h : Outcome g apiKey keyStatus) (hg : g ≤ g') : Outcome g' apiKey keyStatus := by
  unfold Outcome at h ⊢
  split at h
  · exact h
  · obtain ⟨validation, hmem, hstatus⟩ := h
    exact ⟨validation, hg.2.subset hmem, hstatus⟩

/-- What a request may do with the row of its user. -/
inductive Change (crypto : Crypto) (g : Answers) :
    ByokRequest → ByokOp → Option ByokKey → Option ByokKey → Prop
  | set {u : ℕ} {apiKey : String} {op : ByokOp} {old : Option ByokKey} {row new : ByokKey}
      (hop : op.stored = some row) (hplain : crypto.plaintext row.sealed = some apiKey)
      (hprovider : row.provider = detectByokProvider apiKey) (hstatus : Outcome g apiKey row.keyStatus)
      (hnew : new.keyColumns = row.keyColumns) : Change crypto g (.setKey u apiKey) op old (some new)
  | delete {u : ℕ} {op : ByokOp} {old : Option ByokKey} : Change crypto g (.deleteKey u) op old none
  | expire {u : ℕ} {op : ByokOp} {row : ByokKey} (enabled : Bool) (h : row.sealed ∈ g.rejected) :
      Change crypto g (.generate u) op (some row)
        (some { row with keyStatus := .expired, enabled := enabled })
  | enabled {c : ByokRequest} {op : ByokOp} {row : ByokKey} (enabled : Bool) :
      Change crypto g c op (some row) (some { row with enabled := enabled })

/-- The user of a request. -/
def ByokRequest.userId : ByokRequest → ℕ
  | setKey u _ | toggle u _ | deleteKey u | generate u => u

/-- A log that leaves the rows alone, or changes the one of its user. -/
def Writes (crypto : Crypto) (c : ByokRequest) (g : Answers) (d : ByokDb) (log : List ByokOp) :
    Prop :=
  keyOps log = [] ∨ ∃ op, keyOps log = [op] ∧ op.lock = some c.userId ∧
    Change crypto g c op (d.keys c.userId) ((op.apply d).keys c.userId)

/-- A row with a key that can be read, and the provider that the key denotes. -/
def RowOk (crypto : Crypto) (row : ByokKey) : Prop :=
  ∃ apiKey, crypto.plaintext row.sealed = some apiKey ∧ row.provider = detectByokProvider apiKey

section Rows

variable {crypto : Crypto} {g g' : Answers} {d d' : ByokDb} {c : ByokRequest} {op : ByokOp}
  {log log' : List ByokOp} {u : ℕ} {old new : Option ByokKey} {row loaded : ByokKey}

theorem Change.mono (h : Change crypto g c op old new) (hg : g ≤ g') : Change crypto g' c op old new := by
  cases h with
  | set hop hplain hprovider hstatus hnew => exact .set hop hplain hprovider (hstatus.mono hg) hnew
  | delete => exact .delete
  | expire enabled h =>
    exact .expire enabled (hg.1.subset h)
  | enabled enabled => exact .enabled enabled

/-- A flush that leaves the columns of the key alone. -/
theorem change_of_keyColumns (h : row.keyColumns = loaded.keyColumns) (old : ByokKey) :
    old.change (loaded.changeTo row) =
      { old with enabled := (old.change (loaded.changeTo row)).enabled } := by
  obtain ⟨hsealed, hrest⟩ := Prod.mk.inj h
  obtain ⟨hstatus, hprovider⟩ := Prod.mk.inj hrest
  obtain ⟨hkey, hdek, hnonce⟩ := Sealed.mk.inj hsealed
  simp [ByokKey.change, ByokKey.changeTo, changed, hstatus, hprovider, hkey, hdek, hnonce]

/-- A flush of a status makes the row one with this status, and the row held the same key. -/
theorem change_expired (old : ByokKey)
    (h : (old.change (loaded.changeTo { loaded with keyStatus := .expired, enabled := false })).keyColumns =
      ({ loaded with keyStatus := .expired, enabled := false } : ByokKey).keyColumns) :
    old.sealed = loaded.sealed ∧
      old.change (loaded.changeTo { loaded with keyStatus := .expired, enabled := false }) =
        { old with
          keyStatus := .expired
          enabled := (old.change (loaded.changeTo
            { loaded with keyStatus := .expired, enabled := false })).enabled } := by
  obtain ⟨hsealed, hrest⟩ := Prod.mk.inj h
  obtain ⟨hstatus, -⟩ := Prod.mk.inj hrest
  refine ⟨by simpa [ByokKey.sealed, ByokKey.change, ByokKey.changeTo, changed] using hsealed, ?_⟩
  simp only [ByokKey.change, ByokKey.changeTo] at hstatus ⊢
  simp [changed] at hstatus ⊢
  exact hstatus

/-- A write that does not hold the row of a user leaves it. -/
theorem keys_apply_of_ne (h : op.lock ≠ some u) : (op.apply d).keys u = d.keys u := by
  cases op with
  | insertKey v row => exact Function.update_of_ne (fun hv => h (by rw [hv]; rfl)) _ _
  | updateKey v loaded new => exact Function.update_of_ne (fun hv => h (by rw [hv]; rfl)) _ _
  | deleteKey v => exact Function.update_of_ne (fun hv => h (by rw [hv]; rfl)) _ _
  | insertAudit event => rfl

/-- The row that a write holds depends on that row alone. -/
theorem keys_apply_congr (h : d'.keys u = d.keys u) : (op.apply d').keys u = (op.apply d).keys u := by
  cases op with
  | insertKey v row => by_cases hv : u = v <;> simp [ByokOp.apply, hv, h]
  | updateKey v loaded new =>
    by_cases hv : u = v
    · subst hv
      simp [ByokOp.apply, h]
    · simp [ByokOp.apply, hv, h]
  | deleteKey v => by_cases hv : u = v <;> simp [ByokOp.apply, hv, h]
  | insertAudit event => exact h

theorem keys_view_of_not_mem (h : u ∉ log.filterMap ByokOp.lock) :
    ((byokStore crypto).view log d).keys u = d.keys u := by
  induction log generalizing d with
  | nil => rfl
  | cons op log ih =>
    have hop : op.lock ≠ some u := fun hl => h (List.mem_filterMap.2 ⟨op, .head _, hl⟩)
    have hlog : u ∉ log.filterMap ByokOp.lock := fun hmem => by
      obtain ⟨o, ho, hl⟩ := List.mem_filterMap.1 hmem
      exact h (List.mem_filterMap.2 ⟨o, .tail _ ho, hl⟩)
    rw [Store.view_cons, ih hlog]
    exact keys_apply_of_ne hop

/-- Audits do not change the rows. -/
theorem keys_view (log : List ByokOp) (d : ByokDb) (u : ℕ) :
    ((byokStore crypto).view log d).keys u = ((byokStore crypto).view (keyOps log) d).keys u := by
  have hcongr : ∀ (l : List ByokOp) {d d' : ByokDb}, d'.keys u = d.keys u →
      ((byokStore crypto).view l d').keys u = ((byokStore crypto).view l d).keys u := by
    intro l
    induction l with
    | nil => exact fun h => h
    | cons o l ih => exact fun h => ih (keys_apply_congr h)
  induction log generalizing d with
  | nil => rfl
  | cons op log ih =>
    cases op with
    | insertAudit event => exact (ih _).trans (hcongr _ rfl)
    | _ => exact ih _

/-- What is held by a log is held by its writes to the rows. -/
theorem mem_locks_keyOps :
    u ∈ log.filterMap ByokOp.lock ↔ u ∈ (keyOps log).filterMap ByokOp.lock := by
  simp only [List.mem_filterMap, keyOps, List.mem_filter]
  constructor
  · rintro ⟨o, ho, hl⟩
    refine ⟨o, ⟨ho, ?_⟩, hl⟩
    cases o with
    | insertAudit => cases hl
    | _ => rfl
  · rintro ⟨o, ⟨ho, -⟩, hl⟩
    exact ⟨o, ho, hl⟩

theorem Writes.mono (h : Writes crypto c g d log) (hg : g ≤ g') : Writes crypto c g' d log :=
  h.imp_right fun ⟨op, hops, hlock, hc⟩ => ⟨op, hops, hlock, hc.mono hg⟩

/-- Another log that can be open together with it leaves the row that a log changes. -/
theorem Writes.apart (h : Writes crypto c g d log) (hc : ByokOp.Apart log log') :
    Writes crypto c g ((byokStore crypto).view log' d) log := by
  refine h.imp_right fun ⟨op, hops, hlock, hchange⟩ => ⟨op, hops, hlock, ?_⟩
  have hmem : c.userId ∈ log.filterMap ByokOp.lock := by
    rw [mem_locks_keyOps, hops]
    exact List.mem_filterMap.2 ⟨op, .head _, hlock⟩
  have hframe : ((byokStore crypto).view log' d).keys c.userId = d.keys c.userId :=
    keys_view_of_not_mem (hc _ hmem)
  rw [hframe, keys_apply_congr hframe]
  exact hchange

/-- More audits. -/
theorem Writes.append (h : Writes crypto c g d log) (hlog' : keyOps log' = []) :
    Writes crypto c g d (log ++ log') := by
  rw [Writes, keyOps_append, hlog', List.append_nil]
  exact h

/-- The rows after a log: those before it, apart from the one of its user. -/
theorem Writes.keys (h : Writes crypto c g d log) (u : ℕ) :
    ((byokStore crypto).view log d).keys u = d.keys u ∨
      u = c.userId ∧ ∃ op ∈ log, Change crypto g c op (d.keys u)
        (((byokStore crypto).view log d).keys u) := by
  rw [keys_view]
  obtain hops | ⟨op, hops, hlock, hchange⟩ := h
  · rw [hops]
    exact .inl rfl
  · rw [hops]
    by_cases hu : u = c.userId
    · subst hu
      have hmem : op ∈ keyOps log := hops ▸ .head _
      exact .inr ⟨rfl, op, (List.mem_filter.1 hmem).1, hchange⟩
    · refine .inl (keys_apply_of_ne ?_)
      rw [hlock]
      exact fun he => hu (Option.some.inj he).symm

/-- The row after a change. -/
theorem Change.rowOk (h : Change crypto g c op old new) (hold : ∀ r, old = some r → RowOk crypto r)
    (hnew : new = some row) : RowOk crypto row := by
  cases h with
  | @set _ _ _ _ stored new hop hplain hprovider hstatus hcols =>
    obtain rfl := Option.some.inj hnew
    obtain ⟨hsealed, hrest⟩ := Prod.mk.inj hcols
    obtain ⟨-, hprov⟩ := Prod.mk.inj hrest
    rw [RowOk, hsealed, hprov]
    exact ⟨_, hplain, hprovider⟩
  | delete => cases hnew
  | @expire _ _ r enabled h =>
    obtain rfl := Option.some.inj hnew
    have hr : RowOk crypto r := hold r rfl
    exact hr
  | @enabled _ _ r enabled =>
    obtain rfl := Option.some.inj hnew
    have hr : RowOk crypto r := hold r rfl
    exact hr

/-- A log keeps the rows good. -/
theorem Writes.rowOk (h : Writes crypto c g d log)
    (hd : ∀ u row, d.keys u = some row → RowOk crypto row) :
    ∀ u row, ((byokStore crypto).view log d).keys u = some row → RowOk crypto row := by
  intro u row hrow
  obtain hsame | ⟨rfl, op, -, hchange⟩ := h.keys u
  · exact hd u row (hsame.symm.trans hrow)
  · exact hchange.rowOk (hd _) hrow

end Rows

/-! ## One session -/

section Session

variable {ι : Type} (crypto : Crypto) (calls : ι → ByokRequest)

abbrev ByokOwn : Type := Own ByokDb ByokOp Answers Unit

/-- What the session of a request may commit. -/
def keyProtocol : Protocol (byokStore crypto) ι where
  inv _ d := ∀ u row, d.keys u = some row → RowOk crypto row
  may i g d log := Writes crypto (calls i) g d log
  test _ d e := unshared d e = true
  inv_gen _ h := h
  inv_commit h hm := hm.rowOk h

variable {crypto calls} {settings : ByokSettings} {i : ι} {l : ByokOwn} {α : Type} {u : ℕ}

/-- The open transaction of a session. -/
def Open (crypto : Crypto) (c : ByokRequest) (l : ByokOwn) : Prop := Writes crypto c l.gen l.db l.log

theorem Open.stable : Protocol.Stable (keyProtocol crypto calls) i (Open crypto (calls i)) := by
  intro l l' _ h hr
  cases hr with
  | gen hg => exact h.mono hg
  | commit hj hc hm => exact h.apart hc

/-- What holds when a method has ended. -/
def Kept (crypto : Crypto) (c : ByokRequest) {α : Type} (_ : Except ByokError α) (l : ByokOwn) : Prop :=
  Open crypto c l

/-- The session keeps the protocol. -/
abbrev Keeps (crypto : Crypto) (calls : ι → ByokRequest) (i : ι) (p : ByokProg α) (l : ByokOwn) :
    Prop := (keyProtocol crypto calls).rg i (Kept crypto (calls i)) p l

/-- The steps of the others. -/
abbrev Others (crypto : Crypto) (calls : ι → ByokRequest) (i : ι) (l l' : ByokOwn) : Prop :=
  (keyProtocol crypto calls).Relies i l l'

/-- The rows that are committed are good. -/
abbrev Good (crypto : Crypto) (l : ByokOwn) : Prop :=
  ∀ u row, l.db.keys u = some row → RowOk crypto row

theorem Open.ret (hi : Good crypto l) (h : Open crypto (calls i) l) (a : α) :
    Keeps crypto calls i (.ret a) l :=
  Protocol.rg_ret fun _ he _ => Open.stable.relies hi h he

theorem Open.raise (hi : Good crypto l) (h : Open crypto (calls i) l) (x : ByokError) :
    Keeps crypto calls i (.raise x : ByokProg α) l :=
  Protocol.rg_raise fun _ he _ => Open.stable.relies hi h he

/-- The rule for a statement. -/
theorem rg_byokStmt {Q : Except ByokError α → ByokOwn → Prop} {s : ByokStmt} {k : s.Resp → ByokProg α}
    (h : ∀ l₁, Others crypto calls i l l₁ → Good crypto l₁ →
      unshared (l₁.view (byokStore crypto)) (.stmt s) = true →
      ∀ r, s.Allowed crypto (l₁.view (byokStore crypto)) r → (keyProtocol crypto calls).rg i Q (k r)
        ⟨s.outside l₁.gen r, l₁.db, l₁.log ++ s.writes (l₁.view (byokStore crypto)), (), l₁.done⟩) :
    (keyProtocol crypto calls).rg i Q (.act (.stmt s) k) l := by
  refine Protocol.rg_stmt fun l₁ he hi ht r ops gen mem hx => ?_
  obtain ⟨hr, rfl, rfl⟩ := hx
  exact h l₁ he hi ht r hr

/-- The rule for a statement that writes nothing. -/
theorem rg_read {Q : Except ByokError α → ByokOwn → Prop} {s : ByokStmt} {k : s.Resp → ByokProg α}
    (hs : ∀ d, s.writes d = []) (hg : ∀ g r, s.outside g r = g)
    (h : ∀ l₁, Others crypto calls i l l₁ → Good crypto l₁ →
      unshared (l₁.view (byokStore crypto)) (.stmt s) = true →
      ∀ r, s.Allowed crypto (l₁.view (byokStore crypto)) r → (keyProtocol crypto calls).rg i Q (k r) l₁) :
    (keyProtocol crypto calls).rg i Q (.act (.stmt s) k) l := by
  refine rg_byokStmt fun l₁ he hi ht r hr => ?_
  have hk := h l₁ he hi ht r hr
  rw [hs, hg, List.append_nil]
  exact hk

/-- The rows as a session sees them that has changed none. -/
theorem view_keys (hlog : keyOps l.log = []) (u : ℕ) :
    (l.view (byokStore crypto)).keys u = l.db.keys u := by
  show ((byokStore crypto).view l.log l.db).keys u = _
  rw [keys_view, hlog]
  rfl

/-- A session that has changed no row. -/
theorem Open.of_nil {c : ByokRequest} (hlog : keyOps l.log = []) : Open crypto c l := .inl hlog

/-- The audit that a method ends with. -/
theorem record_rg {payload : List (String × Json)} {a : α} (hi : Good crypto l)
    (h : Open crypto (calls i) l) :
    Keeps crypto calls i ((record u payload).bind fun _ => .ret a) l := by
  refine rg_byokStmt fun l₁ he hi₁ _ r _ => ?_
  have hopen : Open crypto (calls i) l₁ := Open.stable.relies hi h he
  exact Open.ret (l := l₁.write _) hi₁ (hopen.append rfl) a

/-- The flush of a row, and the audit. -/
theorem flush_rg {loaded new : ByokKey} {payload : List (String × Json)} {a : α}
    (hlog : keyOps l.log = []) (hu : u = (calls i).userId)
    (hchange : ∀ row, (row.change (loaded.changeTo new)).keyColumns = new.keyColumns →
      Change crypto l.gen (calls i) (.updateKey u loaded new) (some row)
        (some (row.change (loaded.changeTo new)))) :
    Keeps crypto calls i
      ((flush u loaded new).bind fun _ => (record u payload).bind fun _ => .ret a) l := by
  simp only [flush, TxProg.stmt, bind_eq, act_bind, ret_bind]
  refine rg_byokStmt fun l₁ he hi₁ ht r _ => ?_
  have hlog₁ : keyOps l₁.log = [] := by rw [he.own.1, hlog]
  have hview : (l₁.view (byokStore crypto)).keys u = l₁.db.keys u := view_keys hlog₁ u
  have hopen : Open crypto (calls i) (l₁.write ((ByokStmt.flush u loaded new).writes
      (l₁.view (byokStore crypto)))) := by
    cases hrow : l₁.db.keys u with
    | none =>
      refine .inl ?_
      simp [Own.write, ByokStmt.writes, hview, hrow, hlog₁]
    | some row =>
      by_cases hnew : new = loaded
      · exact .inl (by simp [Own.write, ByokStmt.writes, hnew, hlog₁])
      -- the columns that are not written are those of the row that was loaded
      · refine .inr ⟨.updateKey u loaded new, ?_, by rw [hu]; rfl, ?_⟩
        · show keyOps (l₁.log ++ _) = _
          rw [keyOps_append, hlog₁]
          simp [ByokStmt.writes, hnew, hview, hrow, keyOps]
        · have hcols : new.keyColumns = loaded.keyColumns ∨
              (row.change (loaded.changeTo new)).keyColumns = new.keyColumns := by
            simpa [unshared, hview, hrow] using ht
          have hafter : ((ByokOp.updateKey u loaded new).apply l₁.db).keys (calls i).userId =
              some (row.change (loaded.changeTo new)) := by
            simp [ByokOp.apply, ← hu, hrow]
          show Change crypto l₁.gen _ _ (l₁.db.keys _)
            (((ByokOp.updateKey u loaded new).apply l₁.db).keys _)
          rw [hafter, ← hu, hrow]
          obtain hcols | hcols := hcols
          · rw [change_of_keyColumns hcols]
            exact .enabled _
          · exact (hchange row hcols).mono he.own.2.2.2
  cases r with
  | false => exact Open.raise (l := l₁.write _) hi₁ hopen _
  | true => exact record_rg (l := l₁.write _) hi₁ hopen

/-- The insert of a row, and the audit. -/
theorem insert_rg {row : ByokKey} {payload : List (String × Json)} {a : α}
    (hlog : keyOps l.log = []) (hu : u = (calls i).userId)
    (hchange : Change crypto l.gen (calls i) (.insertKey u row) none (some row)) :
    Keeps crypto calls i ((insert u row).bind fun _ => (record u payload).bind fun _ => .ret a) l := by
  simp only [insert, TxProg.stmt, bind_eq, act_bind, ret_bind]
  refine rg_byokStmt fun l₁ he hi₁ _ r _ => ?_
  have hlog₁ : keyOps l₁.log = [] := by rw [he.own.1, hlog]
  have hview : (l₁.view (byokStore crypto)).keys u = l₁.db.keys u := view_keys hlog₁ u
  have hopen : Open crypto (calls i)
      (l₁.write ((ByokStmt.insert u row).writes (l₁.view (byokStore crypto)))) := by
    cases hrow : l₁.db.keys u with
    | some old => exact .inl (by simp [Own.write, ByokStmt.writes, hview, hrow, hlog₁])
    | none =>
      refine .inr ⟨.insertKey u row, ?_, by rw [hu]; rfl, ?_⟩
      · show keyOps (l₁.log ++ _) = _
        rw [keyOps_append, hlog₁]
        simp [ByokStmt.writes, hview, hrow, keyOps]
      · have hafter : ((ByokOp.insertKey u row).apply l₁.db).keys (calls i).userId = some row := by
          simp [ByokOp.apply, ← hu]
        show Change crypto l₁.gen _ _ (l₁.db.keys _) (((ByokOp.insertKey u row).apply l₁.db).keys _)
        rw [hafter, ← hu, hrow]
        exact hchange.mono he.own.2.2.2
  cases r with
  | false => exact Open.raise (l := l₁.write _) hi₁ hopen _
  | true => exact record_rg (l := l₁.write _) hi₁ hopen

/-! ### The methods -/

theorem storeKey_rg {apiKey : String} {keyStatus : KeyStatus} (hcall : calls i = .setKey u apiKey)
    (hlog : l.log = []) (hstatus : Outcome l.gen apiKey keyStatus) :
    Keeps crypto calls i (storeKey crypto settings u apiKey keyStatus (detectByokProvider apiKey)) l := by
  have hu : u = (calls i).userId := by rw [hcall]; rfl
  simp only [storeKey, TxProg.stmt, bind_eq, pure_eq, act_bind, ret_bind]
  refine rg_read (fun _ => rfl) (fun _ _ => rfl) fun l₁ he₁ _ _ r _ => ?_
  refine rg_read (fun _ => rfl) (fun _ _ => rfl) fun l₂ he₂ _ _ encryptedDek hdek => ?_
  refine rg_read (fun _ => rfl) (fun _ _ => rfl) fun l₃ he₃ hi₃ _ existing _ => ?_
  obtain ⟨random, rfl⟩ := hdek
  have hlog₃ : keyOps l₃.log = [] := by rw [he₃.own.1, he₂.own.1, he₁.own.1, hlog, keyOps_nil]
  have hplain := crypto.plaintext_encryptKey r.1 r.2 random apiKey
  have hgen : l.gen ≤ l₃.gen := (he₁.own.2.2.2.trans he₂.own.2.2.2).trans he₃.own.2.2.2
  have hstatus : Outcome l₃.gen apiKey keyStatus := hstatus.mono hgen
  cases existing with
  | none =>
    refine insert_rg hlog₃ hu ?_
    rw [hcall]
    exact .set rfl hplain rfl hstatus rfl
  | some loaded =>
    refine flush_rg hlog₃ hu fun row hcols => ?_
    rw [hcall]
    exact .set rfl hplain rfl hstatus hcols

theorem setKey_rg {apiKey : String} (hcall : calls i = .setKey u apiKey)
    (hlog : l.log = []) : Keeps crypto calls i (setKey crypto settings u apiKey) l := by
  unfold setKey
  split
  · rename_i hnone
    have hstatus : Outcome l.gen apiKey .invalid := by
      rw [Outcome, hnone]
    have h : Keeps crypto calls i
        (storeKey crypto settings u apiKey .invalid (detectByokProvider apiKey)) l :=
      storeKey_rg hcall hlog hstatus
    rw [hnone] at h
    exact h
  · rename_i provider hsome
    simp only [TxProg.stmt, bind_eq, act_bind, ret_bind]
    refine rg_byokStmt fun l₁ he₁ _ _ validation _ => ?_
    have hlog₁ : l₁.log ++ [] = [] := by rw [List.append_nil, he₁.own.1, hlog]
    have hstatus : Outcome ((ByokStmt.validateKey provider apiKey).outside l₁.gen validation) apiKey
        validation.keyStatus := by
      rw [Outcome, hsome]
      exact ⟨validation, List.mem_append_right _ (List.mem_singleton_self _), rfl⟩
    have h : Keeps crypto calls i
        (storeKey crypto settings u apiKey validation.keyStatus (detectByokProvider apiKey))
        ⟨_, l₁.db, l₁.log ++ [], (), l₁.done⟩ := storeKey_rg hcall hlog₁ hstatus
    rw [hsome] at h
    exact h

theorem toggle_rg {enabled : Bool} (hcall : calls i = .toggle u enabled)
    (hlog : l.log = []) : Keeps crypto calls i (toggle settings u enabled) l := by
  have hu : u = (calls i).userId := by rw [hcall]; rfl
  simp only [toggle, TxProg.stmt, bind_eq, pure_eq, act_bind, ret_bind]
  refine rg_read (fun _ => rfl) (fun _ _ => rfl) fun l₁ he₁ hi₁ _ row _ => ?_
  have hlog₁ : keyOps l₁.log = [] := by rw [he₁.own.1, hlog, keyOps_nil]
  cases row with
  | none => exact Open.ret hi₁ (.of_nil hlog₁) _
  | some row =>
    simp only
    split
    · exact record_rg hi₁ (.of_nil hlog₁)
    · refine flush_rg hlog₁ hu fun old _ => ?_
      have hcols : ({ row with enabled := enabled } : ByokKey).keyColumns = row.keyColumns := rfl
      rw [change_of_keyColumns hcols]
      exact .enabled _

theorem deleteKey_rg (hcall : calls i = .deleteKey u) (hlog : l.log = []) :
    Keeps crypto calls i (deleteKey u) l := by
  simp only [deleteKey, TxProg.stmt, bind_eq, pure_eq, act_bind, ret_bind]
  refine rg_byokStmt fun l₁ he₁ hi₁ _ r _ => ?_
  have hlog₁ : l₁.log = [] := he₁.own.1.trans hlog
  refine record_rg (l := l₁.write _) hi₁ ?_
  have hview : (l₁.view (byokStore crypto)).keys u = l₁.db.keys u :=
    view_keys (by rw [hlog₁, keyOps_nil]) u
  cases hrow : l₁.db.keys u with
  | none => exact .inl (by simp [Own.write, ByokStmt.writes, hview, hrow, hlog₁])
  | some row =>
    refine .inr ⟨.deleteKey u, ?_, by rw [hcall]; rfl, ?_⟩
    · simp [Own.write, ByokStmt.writes, hview, hrow, hlog₁, keyOps]
    · have hafter : ((ByokOp.deleteKey u).apply l₁.db).keys (calls i).userId = none := by
        simp [ByokOp.apply, hcall, ByokRequest.userId]
      show Change crypto l₁.gen _ _ (l₁.db.keys _) (((ByokOp.deleteKey u).apply l₁.db).keys _)
      rw [hafter, hcall]
      exact .delete

/-- The row of the key that was rejected. -/
theorem markExpired_rg {used : Sealed} (hcall : calls i = .generate u)
    (hlog : l.log = []) (hused : used ∈ l.gen.rejected) :
    Keeps crypto calls i (markExpired u (some used)) l := by
  have hu : u = (calls i).userId := by rw [hcall]; rfl
  simp only [markExpired, markAs, TxProg.stmt, bind_eq, pure_eq, act_bind, ret_bind]
  refine rg_read (fun _ => rfl) (fun _ _ => rfl) fun l₁ he₁ hi₁ ht row hrow => ?_
  have hlog₁ : keyOps l₁.log = [] := by rw [he₁.own.1, hlog, keyOps_nil]
  obtain rfl : row = _ := hrow
  have hview : (l₁.view (byokStore crypto)).keys u = l₁.db.keys u := view_keys hlog₁ u
  rw [hview]
  cases hrow : l₁.db.keys u with
  | none => exact Open.ret hi₁ (.of_nil hlog₁) _
  | some row =>
    have hsealed : row.sealed = used := by
      simpa [unshared, hview, hrow] using ht
    show Keeps crypto calls i (Prog.bind (flush _ _ _) fun _ => Prog.bind (record _ _) fun _ => .ret ()) l₁
    refine flush_rg hlog₁ hu fun old hcols => ?_
    obtain ⟨hkey, hafter⟩ := change_expired old hcols
    rw [hafter, hcall]
    refine .expire _ (?_ : old.sealed ∈ l₁.gen.rejected)
    have hgen : l.gen ≤ l₁.gen := he₁.own.2.2.2
    rw [hkey, hsealed]
    exact hgen.1.subset hused

/-- The rule for a commit. -/
theorem rg_keyCommit {k : Unit → ByokProg α} (hi : Good crypto l) (h : Open crypto (calls i) l)
    (hk : ∀ l', Good crypto l' → l'.log = [] → l.gen ≤ l'.gen → Keeps crypto calls i (k ()) l') :
    Keeps crypto calls i (.act .commit k) l := by
  refine Protocol.rg_commit fun l₁ he hi₁ _ => ?_
  have hopen : Open crypto (calls i) l₁ := Open.stable.relies hi h he
  exact ⟨hopen, hk _ (hopen.rowOk hi₁) rfl he.own.2.2.2⟩

/-- The rounds of a turn change a row only after the key in it was rejected. -/
theorem generateRounds_rg {provider : Provider} {apiKey : String} {used : Sealed} (n : ℕ)
    (hcall : calls i = .generate u) (hi : Good crypto l) (hlog : l.log = []) :
    Keeps crypto calls i (generateRounds u provider apiKey used n) l := by
  have hopen : ∀ {l : ByokOwn}, l.log = [] → Open crypto (calls i) l := by
    intro l h
    exact .of_nil (by rw [h]; rfl)
  induction n generalizing l with
  | zero => exact Open.raise hi (hopen hlog) _
  | succ n ih =>
    simp only [generateRounds, TxProg.commit, TxProg.stmt, bind_eq, act_bind, ret_bind]
    refine rg_keyCommit hi (hopen hlog) fun l₁ hi₁ hlog₁ _ => ?_
    refine rg_byokStmt fun l₂ he₂ hi₂ _ reply _ => ?_
    have hlog₂ : l₂.log ++ [] = [] := by rw [List.append_nil, he₂.own.1, hlog₁]
    cases reply with
    | error => exact Open.raise (l := l₂.write []) hi₂ (hopen hlog₂) _
    | final =>
      refine rg_keyCommit (l := ⟨_, _, _, _, _⟩) hi₂ (hopen hlog₂) fun l₃ hi₃ hlog₃ _ => ?_
      exact Open.ret hi₃ (hopen hlog₃) ()
    | toolUse =>
      refine rg_keyCommit (l := ⟨_, _, _, _, _⟩) hi₂ (hopen hlog₂) fun l₃ hi₃ hlog₃ _ => ?_
      exact ih hi₃ hlog₃
    | authError =>
      have hused : used ∈ l₂.gen.rejected ++ [used] := by simp
      refine Protocol.rg_bind (l := ⟨_, _, _, _, _⟩) hi₂
        (Protocol.rg_mono (fun o l' hi' hq => ?_)
          (markExpired_rg (l := ⟨_, _, _, _, _⟩) hcall hlog₂ hused))
      cases o with
      | error x => exact Open.raise hi' hq x
      | ok a => exact rg_keyCommit hi' hq fun l₃ hi₃ hlog₃ _ => Open.ret hi₃ (hopen hlog₃) ()

theorem generation_rg (hcall : calls i = .generate u) (hlog : l.log = []) :
    Keeps crypto calls i (generation crypto settings u) l := by
  have hopen : ∀ {l : ByokOwn}, l.log = [] → Open crypto (calls i) l := by
    intro l h
    exact .of_nil (by rw [h]; rfl)
  simp only [generation, TxProg.stmt, bind_eq, act_bind, ret_bind]
  refine rg_read (fun _ => rfl) (fun _ _ => rfl) fun l₁ he₁ _ _ subscription _ => ?_
  refine rg_read (fun _ => rfl) (fun _ _ => rfl) fun l₂ he₂ hi₂ _ row _ => ?_
  have hlog₂ : l₂.log = [] := by rw [he₂.own.1, he₁.own.1, hlog]
  cases Policy.evaluate (Policy.loadPolicyState none subscription none row) .byok with
  | blocked reason => exact Open.ret hi₂ (hopen hlog₂) _
  | allowed =>
    simp only [getPlaintextKeyWithProvider, TxProg.stmt, bind_eq, act_bind, ret_bind]
    refine rg_read (fun _ => rfl) (fun _ _ => rfl) fun l₃ he₃ hi₃ _ row _ => ?_
    have hlog₃ : l₃.log = [] := he₃.own.1.trans hlog₂
    cases row with
    | none => exact Open.raise hi₃ (hopen hlog₃) _
    | some row =>
      simp only
      cases plaintextKeyWithProvider crypto row with
      | none => exact Open.raise hi₃ (hopen hlog₃) _
      | some key =>
        obtain ⟨apiKey, provider⟩ := key
        cases provider with
        | none => exact rg_keyCommit hi₃ (hopen hlog₃) fun l₄ hi₄ hlog₄ _ => Open.ret hi₄ (hopen hlog₄) ()
        | some provider => exact generateRounds_rg _ hcall hi₃ hlog₃

/-- A method whose result is not used. -/
theorem discard_rg {β : Type} {p : ByokProg β} (hi : Good crypto l) (h : Keeps crypto calls i p l) :
    Keeps crypto calls i (p.bind fun _ => .ret ()) l := by
  refine Protocol.rg_bind hi (Protocol.rg_mono (fun o l' hi' hq => ?_) h)
  cases o with
  | ok a => exact Open.ret hi' hq ()
  | error x => exact Open.raise hi' hq x

/-- **Every request keeps the protocol.** -/
theorem serve_rg (hi : Good crypto l) (hlog : l.log = []) :
    (keyProtocol crypto calls).rg i (fun _ _ => True) ((calls i).serve crypto settings) l := by
  have hmethod : Keeps crypto calls i ((calls i).method crypto settings) l := by
    cases hcall : calls i with
    | setKey u apiKey => exact discard_rg hi (setKey_rg hcall hlog)
    | toggle u enabled => exact discard_rg hi (toggle_rg hcall hlog)
    | deleteKey u => exact discard_rg hi (deleteKey_rg hcall hlog)
    | generate u => exact generation_rg hcall hlog
  refine Protocol.rg_sessionScope hi (Protocol.rg_mono (fun o l' hi' hq => ?_) hmethod)
  cases o with
  | ok a =>
    refine Protocol.rg_commit fun l₁ he₁ _ _ => ⟨Open.stable.relies hi' hq he₁, ?_⟩
    exact Protocol.rg_ret fun _ _ _ => trivial
  | error x => exact Protocol.rg_rollback fun l₁ _ _ => Protocol.rg_raise fun _ _ _ => trivial

/-! ### What is sent to the providers -/

/-- A key is sent to the provider that it denotes: to be validated, and with a message. -/
def SendsRight : TxAct ByokStmt → Prop
  | .stmt (.validateKey provider apiKey) => detectByokProvider apiKey = some provider
  | .stmt (.createMessage provider apiKey _) => detectByokProvider apiKey = some provider
  | _ => True

/-- The actions of the session send keys to the right provider. -/
abbrev Sends (crypto : Crypto) (calls : ι → ByokRequest) (i : ι) (p : ByokProg α) (l : ByokOwn) : Prop :=
  p.wp ((keyProtocol crypto calls).step i) (fun e _ => SendsRight e) (fun _ _ => True) l

theorem sends_of_only {p : ByokProg α} (hp : p.Only SendsRight) : Sends crypto calls i p l := by
  induction p generalizing l with
  | ret a => trivial
  | raise x => trivial
  | act e k ih => exact ⟨hp.1, fun r l' _ => ih r (hp.2 r)⟩

/-- Statements that send no key. -/
theorem storeKey_only {apiKey : String} {keyStatus : KeyStatus} {provider : Option Provider} :
    (storeKey crypto settings u apiKey keyStatus provider).Only SendsRight := by
  refine ⟨trivial, fun r => ⟨trivial, fun _ => ⟨trivial, fun existing => ?_⟩⟩⟩
  cases existing with
  | none =>
    refine ⟨trivial, fun r => ?_⟩
    cases r with
    | true => exact ⟨trivial, fun _ => trivial⟩
    | false => trivial
  | some row =>
    refine ⟨trivial, fun r => ?_⟩
    cases r with
    | true => exact ⟨trivial, fun _ => trivial⟩
    | false => trivial

theorem setKey_only {apiKey : String} : (setKey crypto settings u apiKey).Only SendsRight := by
  unfold setKey
  split
  · exact storeKey_only
  · rename_i provider hsome
    exact ⟨hsome, fun _ => storeKey_only⟩

theorem flush_only {loaded new : ByokKey} {payload : List (String × Json)} {a : α} :
    ((flush u loaded new).bind fun _ => (record u payload).bind fun _ => .ret a).Only SendsRight := by
  refine ⟨trivial, fun r => ?_⟩
  cases r with
  | true => exact ⟨trivial, fun _ => trivial⟩
  | false => trivial

theorem toggle_only {enabled : Bool} : (toggle settings u enabled).Only SendsRight := by
  refine ⟨trivial, fun row => ?_⟩
  cases row with
  | none => trivial
  | some row =>
    simp only [ret_bind]
    split
    · exact ⟨trivial, fun _ => trivial⟩
    · exact flush_only

theorem markExpired_only {used : Option Sealed} : (markExpired u used).Only SendsRight := by
  refine ⟨trivial, fun row => ?_⟩
  cases row with
  | none => trivial
  | some row =>
    show (Prog.bind (flush _ _ _) fun _ => Prog.bind (record _ _) fun _ => .ret ()).Only SendsRight
    exact flush_only

theorem generateRounds_only {provider : Provider} {apiKey : String} {used : Sealed} (n : ℕ)
    (h : detectByokProvider apiKey = some provider) :
    (generateRounds u provider apiKey used n).Only SendsRight := by
  induction n with
  | zero => trivial
  | succ n ih =>
    refine ⟨trivial, fun _ => ⟨h, fun reply => ?_⟩⟩
    cases reply with
    | authError =>
      show ((markExpired u (some used)).bind fun _ => TxProg.commit).Only SendsRight
      exact .bind markExpired_only fun _ => ⟨trivial, fun _ => trivial⟩
    | error => trivial
    | final => exact ⟨trivial, fun _ => trivial⟩
    | toolUse => exact ⟨trivial, fun _ => ih⟩

/-- A good row says which provider its key is sent to. -/
theorem RowOk.provider_eq {row : ByokKey} (h : RowOk crypto row) {key : String}
    {provider : Option Provider} (hkey : plaintextKeyWithProvider crypto row = some (key, provider)) :
    provider = detectByokProvider key := by
  obtain ⟨apiKey, hplain, hprovider⟩ := h
  simp only [plaintextKeyWithProvider, hplain, Option.map_some, Option.some.injEq, Prod.mk.injEq] at hkey
  obtain ⟨rfl, rfl⟩ := hkey
  rw [hprovider]
  cases detectByokProvider apiKey <;> rfl

/-- The rule for a statement that writes nothing and sends nothing. -/
theorem sends_read {s : ByokStmt} {k : s.Resp → ByokProg α} (hsend : SendsRight (.stmt s))
    (hs : ∀ d, s.writes d = []) (hg : ∀ g r, s.outside g r = g)
    (h : ∀ l₁, Others crypto calls i l l₁ → Good crypto l₁ →
      ∀ r, s.Allowed crypto (l₁.view (byokStore crypto)) r → Sends crypto calls i (k r) l₁) :
    Sends crypto calls i (.act (.stmt s) k) l := by
  refine ⟨hsend, fun r l' hstep => ?_⟩
  obtain ⟨l₁, he, hi, -, ops, gen, mem, ⟨hr, rfl, rfl⟩, rfl⟩ := hstep
  rw [hs, hg, List.append_nil]
  exact h l₁ he hi r hr

theorem generation_sends (hlog : l.log = []) : Sends crypto calls i (generation crypto settings u) l := by
  simp only [generation, TxProg.stmt, bind_eq, act_bind, ret_bind]
  refine sends_read trivial (fun _ => rfl) (fun _ _ => rfl) fun l₁ he₁ _ subscription _ => ?_
  refine sends_read trivial (fun _ => rfl) (fun _ _ => rfl) fun l₂ he₂ _ row _ => ?_
  cases Policy.evaluate (Policy.loadPolicyState none subscription none row) .byok with
  | blocked reason => trivial
  | allowed =>
    simp only [getPlaintextKeyWithProvider, TxProg.stmt, bind_eq, act_bind, ret_bind]
    refine sends_read trivial (fun _ => rfl) (fun _ _ => rfl) fun l₃ he₃ hi₃ row hrow => ?_
    have hlog₃ : l₃.log = [] := by rw [he₃.own.1, he₂.own.1, he₁.own.1, hlog]
    obtain rfl : row = _ := hrow
    rw [view_keys (by rw [hlog₃, keyOps_nil])]
    cases hrow : l₃.db.keys u with
    | none => trivial
    | some row =>
      simp only
      cases hkey : plaintextKeyWithProvider crypto row with
      | none => trivial
      | some key =>
        obtain ⟨apiKey, provider⟩ := key
        have hprovider := (hi₃ u row hrow).provider_eq hkey
        cases provider with
        | none => exact ⟨trivial, fun _ _ _ => trivial⟩
        | some provider => exact sends_of_only (generateRounds_only _ hprovider.symm)

/-- **Every request sends keys to the right provider.** -/
theorem serve_sends (hlog : l.log = []) :
    Sends crypto calls i ((calls i).serve crypto settings) l := by
  have hmethod : Sends crypto calls i ((calls i).method crypto settings) l := by
    cases calls i with
    | setKey u apiKey => exact sends_of_only (.bind setKey_only fun _ => trivial)
    | toggle u enabled => exact sends_of_only (.bind toggle_only fun _ => trivial)
    | deleteKey u => exact sends_of_only ⟨trivial, fun _ => ⟨trivial, fun _ => trivial⟩⟩
    | generate u => exact generation_sends hlog
  rw [Sends, ByokRequest.serve, TxProg.sessionScope, Prog.wp_tryCatch, Prog.wp_bind]
  refine Prog.wp_mono (fun o l' _ => ?_) hmethod
  cases o with
  | ok a => exact ⟨trivial, fun _ _ _ => trivial⟩
  | error x => exact ⟨trivial, fun _ _ _ => trivial⟩

end Session

/-! ## All requests -/

section Run

variable {ι : Type} {crypto : Crypto} {settings : ByokSettings} {calls : ι → ByokRequest}

/-- The sessions of a pool of requests. -/
abbrev ByokPool (ι : Type) : Type :=
  Pool ι ByokStmt ByokStmt.Resp ByokDb ByokOp Answers Unit ByokError Unit

/-- The requests, before any of them has begun. -/
def requests (crypto : Crypto) (settings : ByokSettings) (calls : ι → ByokRequest) : ByokPool ι :=
  Pool.begin Answers.none ByokDb.empty () fun i => (calls i).serve crypto settings

/-- The row holds a key that a commit of `set_key` has stored, with the provider that its prefix denotes
and the status that this provider gave it, or as expired after a provider rejected this very key. -/
def Determined (crypto : Crypto) (calls : ι → ByokRequest) (hist : List (ι × List ByokOp))
    (g : Answers) (u : ℕ) (row : ByokKey) : Prop :=
  ∃ c ∈ hist, ∃ op ∈ c.2, ∃ stored apiKey, calls c.1 = .setKey u apiKey ∧ op.stored = some stored ∧
    crypto.plaintext stored.sealed = some apiKey ∧ stored.provider = detectByokProvider apiKey ∧
    Outcome g apiKey stored.keyStatus ∧ row.sealed = stored.sealed ∧ row.provider = stored.provider ∧
    (row.keyStatus = stored.keyStatus ∨ row.keyStatus = .expired ∧ row.sealed ∈ g.rejected)

variable {hist : List (ι × List ByokOp)} {g₀ g : Answers} {d : ByokDb} {u : ℕ} {row : ByokKey}

theorem Determined.snoc (h : Determined crypto calls hist g₀ u row) (c : ι × List ByokOp) :
    Determined crypto calls (hist ++ [c]) g₀ u row := by
  obtain ⟨c₀, hc₀, hrest⟩ := h
  exact ⟨c₀, List.mem_append_left _ hc₀, hrest⟩

/-- A change of a determined row makes it a determined one. -/
theorem Change.determined {i : ι} {log : List ByokOp} {op : ByokOp} {old new : Option ByokKey}
    (h : Change crypto g (calls i) op old new) (hop : op ∈ log) (hu : u = (calls i).userId)
    (hg : g ≤ g₀) (hnew : new = some row)
    (hold : ∀ r, old = some r → Determined crypto calls (hist ++ [(i, log)]) g₀ u r) :
    Determined crypto calls (hist ++ [(i, log)]) g₀ u row := by
  generalize hc : calls i = c at h hu
  cases h with
  | @set v apiKey op old stored new hstored hplain hprovider hstatus hcols =>
    obtain rfl := Option.some.inj hnew
    obtain ⟨hsealed, hrest⟩ := Prod.mk.inj hcols
    obtain ⟨hkeyStatus, hprov⟩ := Prod.mk.inj hrest
    obtain rfl : u = v := hu
    exact ⟨(i, log), List.mem_append_right _ (.head _), op, hop, stored, apiKey, hc, hstored, hplain,
      hprovider, hstatus.mono hg, hsealed, hprov, .inl hkeyStatus⟩
  | delete => cases hnew
  | @expire v op r enabled hmem =>
    obtain rfl := Option.some.inj hnew
    obtain ⟨c₀, hc₀, o, ho, stored, apiKey, hcall, hst, hplain, hprov, hout, hsealed, hprovider, -⟩ :=
      hold r rfl
    exact ⟨c₀, hc₀, o, ho, stored, apiKey, hcall, hst, hplain, hprov, hout, hsealed, hprovider,
      .inr ⟨rfl, hg.1.subset hmem⟩⟩
  | @enabled c op r enabled =>
    obtain rfl := Option.some.inj hnew
    exact hold r rfl

/-- Every row that is committed is determined. -/
theorem determined_of_commits (h : Commits (byokStore crypto)
    (fun i g d log => g ≤ g₀ ∧ Writes crypto (calls i) g d log) ByokDb.empty hist d) :
    ∀ u row, d.keys u = some row → Determined crypto calls hist g₀ u row := by
  induction h with
  | nil => exact nofun
  | @snoc hist d i g log _ hm ih =>
    intro u row hrow
    obtain hsame | ⟨hu, op, hop, hchange⟩ := hm.2.keys u
    · exact (ih u row (hsame.symm.trans hrow)).snoc _
    · exact hchange.determined hop hu hm.1 hrow fun r hr => (ih u r hr).snoc _

/-- The sessions of requests that keep the protocol. -/
theorem requests_keeps [DecidableEq ι] :
    Pool.Keeps (keyProtocol crypto calls) (fun _ _ _ => True) ByokDb.empty
      (requests crypto settings calls) :=
  Pool.begin_keeps nofun fun _ => serve_rg nofun rfl

end Run

/-- **Keys under interleaving.** In every run in which a flush of key columns finds the columns that
it leaves alone as they were loaded, and the row that is loaded to be marked as expired holds the
key that was rejected: every row that is committed is determined by a `set_key`, and its status by
the answer that the provider of the key gave; a request changes only the row of its user, and a turn
only sets it to expired when its key was rejected; and a key is only ever sent to the provider that
it denotes, be it to validate it or with a message. -/
theorem byok_interleaving {ι : Type} [DecidableEq ι] {crypto : Crypto} {settings : ByokSettings}
    {calls : ι → ByokRequest} {P : ByokPool ι}
    (h : (requests crypto settings calls).ReachesIf (byokStore crypto)
      (fun _ d e => unshared d e = true) P) :
    (∀ u row, P.db.keys u = some row → Determined crypto calls P.hist P.gen u row) ∧
    Commits (byokStore crypto) (fun i g d log => g ≤ P.gen ∧ Writes crypto (calls i) g d log)
      ByokDb.empty P.hist P.db ∧
    ∀ i e k, (P.thr i).prog = some (.act e k) → SendsRight e := by
  have hkeeps : Pool.Keeps (keyProtocol crypto calls) (fun _ _ _ => True) ByokDb.empty
      (requests crypto settings calls) := requests_keeps
  have hcommits := Pool.ReachesIf.commits_le h hkeeps .nil
  refine ⟨determined_of_commits hcommits, hcommits, fun i e k hprog => ?_⟩
  have hbegin : ∀ i p, ((requests crypto settings calls).thr i).prog = some p →
      Sends crypto calls i p ((requests crypto settings calls).own i) := by
    intro i p hp
    obtain rfl : (calls i).serve crypto settings = p := Option.some.inj hp
    exact serve_sends rfl
  have hsends := Pool.ReachesIf.acts (C := fun _ e => SendsRight e) h hkeeps hbegin i _ hprog
  exact hsends.1

/-- A key that is set, enabled and then rejected. -/
def rejectedKey : Fin 3 → ByokRequest
  | 0 => .setKey 1 "sk-one"
  | 1 => .toggle 1 true
  | 2 => .generate 1

/-- User 1 has an expired key. -/
def isExpired (P : ByokPool (Fin 3)) : Bool := (P.db.keys 1).any fun row => row.keyStatus = .expired

/-- The key is expired, and the provider that it denotes has rejected it. -/
theorem byok_interleaving_run : ∃ P : ByokPool (Fin 3), ∃ row, P.db.keys 1 = some row ∧
    row.keyStatus = .expired ∧ Determined packing rejectedKey P.hist P.gen 1 row := by
  have hplay : (Pool.playIf (byokHandler packing) (fun _ d e => unshared d e) [0, 1, 2]
      (List.replicate 7 0 ++ List.replicate 4 1 ++ List.replicate 10 2)
      (requests packing openaiSettings rejectedKey) ⟨[.valid], [.authError], 0⟩).any
        (fun r => isExpired r.1) = true := by decide +kernel
  obtain ⟨P, hP, hrow⟩ := Pool.exists_of_playIf (by decide) hplay
  obtain ⟨row, hkeys, hexpired⟩ := (Option.any_eq_true ..).1 hrow
  exact ⟨P, row, hkeys, of_decide_eq_true hexpired, (byok_interleaving hP).1 1 row hkeys⟩

/-- Keys that are set while another one is loaded. -/
def racingKeys : Fin 3 → ByokRequest
  | 0 => .setKey 1 "sk-one"
  | 1 => .setKey 1 "sk-ant-two"
  | 2 => .setKey 1 "sk-three"

/-- User 1 has the third key, as a valid one of Anthropic. -/
def isMixed (P : ByokPool (Fin 3)) : Bool :=
  (P.db.keys 1).any fun row => packing.plaintext row.sealed = some "sk-three" ∧
    row.keyStatus = .valid ∧ row.provider = some .anthropic

/-- A key of OpenAI that was found invalid is committed as a valid key of Anthropic. -/
theorem byok_interleaving_fails : ¬∀ P : ByokPool (Fin 3),
    (requests packing openaiSettings racingKeys).Reaches (byokStore packing) P →
      ∀ u row, P.db.keys u = some row → Determined packing racingKeys P.hist P.gen u row := by
  intro hall
  have hplay : (Pool.play (byokHandler packing) [0, 1, 2]
      (List.replicate 7 0 ++ List.replicate 4 2 ++ List.replicate 7 1 ++ List.replicate 3 2)
      (requests packing openaiSettings racingKeys) ⟨[.invalid, .invalid, .valid], [], 0⟩).any
        (fun r => isMixed r.1) = true := by decide +kernel
  obtain ⟨P, hP, hrow⟩ := Pool.exists_of_play (by decide) hplay
  obtain ⟨row, hkeys, hmixed⟩ := (Option.any_eq_true ..).1 hrow
  obtain ⟨hplain, -, hanthropic⟩ := of_decide_eq_true hmixed
  obtain ⟨c, -, op, -, stored, apiKey, -, -, hstored, hprov, -, hsealed, hprovider, -⟩ :=
    hall P hP 1 row hkeys
  have hkey : apiKey = "sk-three" := by
    rw [← hsealed, hplain] at hstored
    exact (Option.some.inj hstored).symm
  rw [hanthropic, hprov, hkey] at hprovider
  have hdetect : detectByokProvider "sk-three" = some .openai := by decide +kernel
  rw [hdetect] at hprovider
  cases hprovider

end ChatBackend.Byok
