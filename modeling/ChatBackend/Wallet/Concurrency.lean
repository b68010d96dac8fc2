import ChatBackend.Wallet.Service

/-!
# The wallet under concurrent transactions

The sessions of a pool run transactions of `consume` and `grant`, in any interleaving of their
statements, and end them as they like: a transaction whose calls returned is committed or rolled
back, one of which a call raised is rolled back.

* `consume_rg` and `grant_rg`: what one call does among the others, from a point where the view of
  its session is lawful.
* `wallet_ledger`: the law of the ledger in every committed state of every pool that is reached,
  and what each call returns, writes and leaves behind.
-/

namespace ChatBackend.Wallet

open Store

/-- What a session of the wallet store knows. -/
abbrev WLocal : Type := Local WalletStmt WalletDb WalletOp ℕ Unit

/-- The invariant of the committed database. -/
def Committed (g : ℕ) (d : WalletDb) : Prop := d.accounts.Inv g

/-- The accounts as they stand under the log `log`. -/
def under (log : List WalletOp) (l : WLocal) : Accounts := applyAll log l.db.accounts

/-- The accounts that the session reads. -/
def reads (l : WLocal) : Accounts := under l.log l

theorem view_eq (l : WLocal) : l.view walletStore = ⟨l.db.owner, reads l⟩ := walletStore_view ..

/-! ## What the others can do -/

/-- The other sessions have committed writes on rows that this one does not hold. -/
structure Moved (l l' : WLocal) : Prop where
  log : l'.log = l.log
  acts : l'.acts = l.acts
  owner : l'.db.owner = l.db.owner
  gen : l.gen ≤ l'.gen
  db : ∃ log, l'.db.accounts = applyAll log l.db.accounts ∧ ∀ k ∈ locks l.log, k ∉ locks log
  inv : Committed l.gen l.db → Committed l'.gen l'.db

theorem Moved.of_envs {l l' : WLocal} (h : Envs walletStore Committed l l') : Moved l l' := by
  induction h with
  | refl => exact ⟨rfl, rfl, rfl, le_refl _, ⟨[], rfl, by simp [locks]⟩, id⟩
  | tail _ hs ih =>
    obtain ⟨log, hdb, hdis⟩ := ih.db
    cases hs with
    | gen hg =>
      exact ⟨ih.log, ih.acts, ih.owner, ih.gen.trans hg, ⟨log, hdb, hdis⟩,
        fun h => (ih.inv h).mono hg⟩
    | @commit log' hc hJ =>
      refine ⟨ih.log, ih.acts, ?_, ih.gen, ⟨log ++ log', ?_, fun k hk => ?_⟩, fun _ => hJ⟩
      · rw [walletStore_view]; exact ih.owner
      · rw [walletStore_view, applyAll_append, hdb]
      · rw [locks_append, List.mem_append, not_or]
        exact ⟨hdis k hk, hc k (ih.log ▸ hk)⟩

variable {l l' : WLocal}

/-- The committed database is lawful, and so is the view of a part `log` of the open log. -/
structure Lawful (log : List WalletOp) (l : WLocal) : Prop where
  db : Committed l.gen l.db
  view : (under log l).Inv l.gen
  held : locks log ⊆ locks l.log

theorem Lawful.moved {log : List WalletOp} (h : Lawful log l) (hm : Moved l l') :
    Lawful log l' := by
  obtain ⟨log', hdb, hdis⟩ := hm.db
  have hJ : Committed l'.gen l'.db := hm.inv h.db
  refine ⟨hJ, ?_, by rw [hm.log]; exact h.held⟩
  rw [Committed, hdb] at hJ
  rw [under, hdb]
  exact h.view.frame h.db hJ hm.gen fun k hk => hdis k (h.held hk)

/-- A lawful view stays lawful. -/
theorem Moved.lawful (hm : Moved l l') (h : Lawful l.log l) : Lawful l'.log l' :=
  hm.log ▸ h.moved hm

/-- No row is ever taken from a view. -/
theorem Moved.ledger_subset (hm : Moved l l') (log : List WalletOp) :
    (under log l).ledger ⊆ (under log l').ledger := by
  obtain ⟨log', hdb, -⟩ := hm.db
  intro r hr
  rw [under, ledger_applyAll, List.mem_append] at hr ⊢
  rw [hdb, ledger_applyAll, List.mem_append]
  exact hr.imp_left .inl

theorem Moved.reads_subset (hm : Moved l l') : (reads l).ledger ⊆ (reads l').ledger := by
  rw [reads, reads, hm.log]
  exact hm.ledger_subset _

/-- The key of an inserted row is held: nobody else commits a row of it. -/
theorem Moved.key_fresh (hm : Moved l l') {log : List WalletOp} {k : ℕ × IdemKey}
    (hk : Lock.key k ∈ locks l.log) (h : ∀ r ∈ (under log l).ledger, r.key ≠ k) :
    ∀ r ∈ (under log l').ledger, r.key ≠ k := by
  obtain ⟨log', hdb, hdis⟩ := hm.db
  intro r hr
  rw [under, ledger_applyAll, List.mem_append, hdb, ledger_applyAll, List.mem_append] at hr
  rcases hr with (hr | hr) | hr
  · exact h r (by rw [under, ledger_applyAll]; exact List.mem_append_left _ hr)
  · rintro rfl
    exact hdis _ hk (key_mem_locks hr)
  · exact h r (by rw [under, ledger_applyAll]; exact List.mem_append_right _ hr)

theorem Moved.isSome (hm : Moved l l') {log : List WalletOp} {u : ℕ}
    (h : ((under log l).wallets u).isSome) : ((under log l').wallets u).isSome := by
  obtain ⟨log', hdb, -⟩ := hm.db
  rw [under, isSome_applyAll] at h ⊢
  rw [hdb, isSome_applyAll]
  exact h.imp_left .inl

/-- A wallet that this session is about to create is created by nobody else. -/
theorem Moved.isNone (hm : Moved l l') {u : ℕ} (hu : Lock.wallet u ∈ locks l.log)
    (h : ¬(l.db.accounts.wallets u).isSome) : ¬(l'.db.accounts.wallets u).isSome := by
  obtain ⟨log', hdb, hdis⟩ := hm.db
  rw [hdb, isSome_applyAll]
  exact fun h' => h'.elim h (hdis _ hu)

/-! ## The parts of a call -/

section Parts

variable {Q : Except WalletError ConsumeResult → WLocal → Prop} {α : Type}

/-- The rule for a statement of the service. -/
theorem rg_run {Q : Except WalletError α → WLocal → Prop} {s : WalletStmt}
    {k : s.Resp → WalletProg α}
    (h : ∀ l₁, Moved l l₁ → Committed l₁.gen l₁.db →
      ∀ r ops g, s.run l₁.db.owner l₁.gen (reads l₁) = (r, ops, g) →
        walletStore.rg Committed Q (k r)
          ⟨g, l₁.db, l₁.log ++ ops, l₁.mem, l₁.acts ++ [(.stmt s, l₁.view walletStore)]⟩) :
    walletStore.rg Committed Q (.act (.stmt s) k) l := by
  refine rg_stmt fun l₁ he hJ r ops g mem hx => ?_
  have hx' : s.run l₁.db.owner l₁.gen (reads l₁) = (r, ops, g) := by
    have hx' : s.run (l₁.view walletStore).owner l₁.gen (l₁.view walletStore).accounts
      = (r, ops, g) := hx
    rwa [view_eq] at hx'
  exact h l₁ (.of_envs he) hJ r ops g hx'

/-- A state after the insertion of the row `r`, the amount still to be moved. -/
structure Pending (base : List WalletOp) (r : LedgerTransaction) (l : WLocal) : Prop where
  log : l.log = base ++ [.insertLedger r]
  lawful : Lawful base l
  key : ∀ r' ∈ (under base l).ledger, r'.key ≠ r.key
  wallet : ((under base l).wallets r.userId).isSome
  id : r.id < l.gen

theorem Pending.moved {base : List WalletOp} {r : LedgerTransaction} (h : Pending base r l)
    (hm : Moved l l') : Pending base r l' := by
  have hk : Lock.key r.key ∈ locks l.log := by
    rw [h.log, locks_append]
    exact List.mem_append_right _ (by simp [locks, WalletOp.lock])
  exact ⟨hm.log.trans h.log, h.lawful.moved hm, hm.key_fresh hk h.key, hm.isSome h.wallet,
    h.id.trans_le hm.gen⟩

end Parts

/-! ## The calls -/

/-- A call of the service. -/
inductive Call : Type
  | consume (userId : ℕ) (amount : Int) (idempotencyKey : IdemKey) (metaData : Json)
      (sessionId : Option ℕ)
  | grant (userId : ℕ) (amount : Int) (idempotencyKey : IdemKey) (metaData : Json)
      (reason : String)

namespace Call

/-- The call as a program. -/
def prog : Call → WalletProg ConsumeResult
  | consume u amount key m sid => Wallet.consume u amount key m sid
  | grant u amount key m reason => Wallet.grant u amount key m reason

/-- The row that the call inserts under a new identifier. -/
def row (id : ℕ) : Call → LedgerTransaction
  | consume u amount key m _ => ⟨id, u, .debit, amount, m, key⟩
  | grant u amount key m _ => ⟨id, u, .credit, amount, m, key⟩

def userId (c : Call) : ℕ := (c.row 0).userId

def type (c : Call) : TxType := (c.row 0).type

def amount (c : Call) : Int := (c.row 0).amount

def key (c : Call) : ℕ × IdemKey := (c.row 0).key

/-- The amount is positive, and a session id that is given is one of the user's. -/
def Accepted (owner : ℕ → Option ℕ) : Call → Prop
  | consume u amount _ _ sid => 0 < amount ∧ ∀ s, sid = some s → owner s = some u
  | grant _ amount _ _ _ => 0 < amount

/-- The conditional `UPDATE` of the call, on the view `d`. -/
def debitAct (c : Call) (d : WalletDb) : TxAct WalletStmt × WalletDb :=
  (.stmt (.debitBalance c.userId c.amount), d)

end Call

/-- What a call does that starts in `l₀` and ends with `o` in `l`. -/
structure CallPost (c : Call) (l₀ : WLocal) (o : Except WalletError ConsumeResult) (l : WLocal) :
    Prop where
  lawful : ∀ res, o = .ok res → Lawful l.log l
  replayed : ∀ r ∈ (reads l₀).ledger, r.key = c.key → r.type = c.type → r.amount = c.amount →
    c.Accepted l₀.db.owner → l.log = l₀.log ∧ ∃ b, o = .ok ⟨b, r.id, true⟩
  conflict : ∀ r ∈ (reads l₀).ledger, r.key = c.key → r.type ≠ c.type ∨ r.amount ≠ c.amount →
    ∃ e, o = .error e
  rejected : ¬c.Accepted l₀.db.owner → ∃ e, o = .error e
  insufficient : ∀ d, c.debitAct d ∈ l.acts → d.accounts.balance c.userId < c.amount →
    ∃ m, o = .error (.insufficientCredits m)
  outcome : ∀ res, o = .ok res →
    (res.idempotentReplay = true ∧ l.log = l₀.log ∧ ∃ r ∈ (reads l).ledger,
      r.id = res.ledgerTxId ∧ r.key = c.key ∧ r.type = c.type ∧ r.amount = c.amount) ∨
    (res.idempotentReplay = false ∧ rows l.log = rows l₀.log ++ [c.row res.ledgerTxId] ∧
      (c.type = .debit → ∃ d, c.debitAct d ∈ l.acts ∧ c.amount ≤ d.accounts.balance c.userId))

/-! ### Before the insertion -/

/-- A state of the call in which it has written nothing. -/
structure Start (c : Call) (l₀ l : WLocal) : Prop where
  log : l.log = l₀.log
  lawful : Lawful l.log l
  ledger : (reads l₀).ledger ⊆ (reads l).ledger
  acts : ∀ d, c.debitAct d ∉ l.acts

variable {c : Call} {l₀ : WLocal}

theorem Start.moved (h : Start c l₀ l) (hm : Moved l l') : Start c l₀ l' := by
  exact ⟨hm.log.trans h.log, hm.lawful h.lawful, List.Subset.trans h.ledger hm.reads_subset,
    hm.acts ▸ h.acts⟩

/-- A statement that writes nothing. -/
theorem Start.ran (h : Start c l₀ l) {s : WalletStmt} {d : WalletDb}
    (hs : s ≠ .debitBalance c.userId c.amount) :
    Start c l₀ ⟨l.gen, l.db, l.log ++ [], l.mem, l.acts ++ [(.stmt s, d)]⟩ := by
  refine ⟨by simp [h.log], ?_, ?_, fun d' => ?_⟩
  · exact ⟨h.lawful.db, by simpa [under] using h.lawful.view, by simp⟩
  · simpa [reads, under] using h.ledger
  · simpa [Call.debitAct, Ne.symm hs] using h.acts d'

/-- A call that raises, the balance not yet looked at. -/
theorem Start.raised (h : Start c l₀ l) {e : WalletError}
    (hr : ∀ r ∈ (reads l₀).ledger, r.key = c.key → r.type = c.type → r.amount = c.amount →
      ¬c.Accepted l₀.db.owner) : CallPost c l₀ (.error e) l :=
  ⟨nofun, fun r hm hk ht ha hacc => absurd hacc (hr r hm hk ht ha), fun _ _ _ _ => ⟨e, rfl⟩,
    fun _ => ⟨e, rfl⟩, fun d hd => absurd hd (h.acts d), nofun⟩

/-- The row of the call's key, when there is one, decides between replay and conflict. -/
theorem replay_rg (h : Start c l₀ l) (hacc : c.Accepted l₀.db.owner)
    (hex : ∃ r ∈ (reads l).ledger, r.key = c.key) :
    walletStore.rg Committed (CallPost c l₀)
      (replay c.userId c.type c.amount (c.row 0).idempotencyKey) l := by
  unfold replay
  simp only [Prog.bind_eq, Prog.throw_eq, Prog.pure_eq]
  refine rg_run fun l₁ hm _ res ops g hrun => ?_
  have h₁ := h.moved hm
  simp only [WalletStmt.run, Prod.mk.injEq] at hrun
  obtain ⟨rfl, rfl, rfl⟩ := hrun
  have h₂ := h₁.ran (d := l₁.view walletStore)
    (s := .existingTx c.userId (c.row 0).idempotencyKey) nofun
  obtain ⟨r, hr, hk⟩ := hex
  have hr₁ : r ∈ (reads l₁).ledger := hm.reads_subset hr
  -- the row that is found is the row of the key
  have hfind : (reads l₁).ledger.find? (fun r => r.key = (c.userId, (c.row 0).idempotencyKey)) =
      some r := by
    cases hf : (reads l₁).ledger.find? fun r => r.key = (c.userId, (c.row 0).idempotencyKey) with
    | none =>
      have := List.find?_eq_none.1 hf r hr₁
      simp only [decide_eq_true_eq] at this
      exact absurd hk this
    | some r' =>
      have hk' : r'.key = (c.userId, (c.row 0).idempotencyKey) := by
        simpa using List.find?_some hf
      rw [h₁.lawful.view.eq_of_key (List.mem_of_find?_eq_some hf) hr₁ (hk'.trans hk.symm)]
  have honly : ∀ r' ∈ (reads l₀).ledger, r'.key = c.key → r' = r := fun r' hr' hk' =>
    h₁.lawful.view.eq_of_key (h₁.ledger hr') hr₁ (hk'.trans hk.symm)
  simp only [Prog.ret_bind, hfind]
  split
  · rename_i hne
    refine fun l₂ he => (h₂.moved (.of_envs he)).raised fun r' hr' hk' ht ha _ => ?_
    rw [honly r' hr' hk'] at ht ha
    exact hne.elim (· ht) (· ha)
  · rename_i heq
    simp only [not_or, not_not] at heq
    refine rg_run fun l₂ hm₂ _ b ops g hrun => ?_
    have h₃ := h₂.moved hm₂
    simp only [WalletStmt.run, Prod.mk.injEq] at hrun
    obtain ⟨rfl, rfl, rfl⟩ := hrun
    have h₄ := h₃.ran (d := l₂.view walletStore) (s := .currentBalance c.userId) nofun
    intro l₃ he
    have h₅ := h₄.moved (.of_envs he)
    refine ⟨fun _ _ => h₅.lawful, fun r' hr' hk' _ _ _ => ?_, fun r' hr' hk' hne => ?_,
      fun hna => absurd hacc hna, fun d hd => absurd hd (h₅.acts d), ?_⟩
    · rw [honly r' hr' hk']
      exact ⟨h₅.log, _, rfl⟩
    · rw [honly r' hr' hk'] at hne
      exact absurd heq (not_and_or.2 hne)
    · rintro res hres
      cases hres
      refine .inl ⟨rfl, h₅.log, r, ?_, rfl, hk, heq⟩
      have hr₂ : r ∈ (reads l₂).ledger := hm₂.reads_subset (by simpa [reads, under] using hr₁)
      exact (Moved.of_envs he).reads_subset (by simpa [reads, under] using hr₂)

/-! ### The insertion -/

/-- A state of the call in which its row is inserted under `id`, the amount still to be moved. -/
structure Inserted (c : Call) (l₀ : WLocal) (id : ℕ) (l : WLocal) : Prop where
  pending : ∃ base, Pending base (c.row id) l ∧ rows base = rows l₀.log
  key : ∀ r ∈ (reads l₀).ledger, r.key ≠ c.key
  acts : ∀ d, c.debitAct d ∉ l.acts

theorem Inserted.moved {id : ℕ} (h : Inserted c l₀ id l) (hm : Moved l l') :
    Inserted c l₀ id l' := by
  obtain ⟨base, hp, hrows⟩ := h.pending
  exact ⟨⟨base, hp.moved hm, hrows⟩, h.key, hm.acts ▸ h.acts⟩

theorem Call.row_key (c : Call) (id : ℕ) : (c.row id).key = c.key := by
  cases c <;> rfl

theorem Call.row_userId (c : Call) (id : ℕ) : (c.row id).userId = c.userId := by
  cases c <;> rfl

/-- A state of the call before the insertion, the wallet provided. It can hold the new wallet
only when there is no row of its user, so none of the call's key. -/
structure Provided (c : Call) (l₀ l : WLocal) : Prop where
  lawful : Lawful l.log l
  rows : rows l.log = rows l₀.log
  wallet : ((reads l).wallets c.userId).isSome
  ledger : (reads l₀).ledger ⊆ (reads l).ledger
  acts : ∀ d, c.debitAct d ∉ l.acts
  start : (∃ r ∈ (reads l).ledger, r.key = c.key) → Start c l₀ l

/-- After `_ensure_wallet` and whatever the others do then. -/
theorem Start.provided (h : Start c l₀ l) (hm : Moved ⟨l.gen, l.db, l.log ++
      if ((reads l).wallets c.userId).isSome then [] else [.insertWallet c.userId], l.mem,
      l.acts ++ [(.stmt (.ensureWallet c.userId), l.view walletStore)]⟩ l') :
    Provided c l₀ l' := by
  split at hm
  · rename_i hw
    have h' := (h.ran (d := l.view walletStore) (s := .ensureWallet c.userId) nofun).moved hm
    refine ⟨h'.lawful, congrArg _ h'.log, ?_, h'.ledger, h'.acts, fun _ => h'⟩
    have : ((under l.log l').wallets c.userId).isSome := hm.isSome hw
    rwa [reads, hm.log, List.append_nil]
  · rename_i hw
    have hlaw : Lawful (l.log ++ [.insertWallet c.userId]) ⟨l.gen, l.db,
        l.log ++ [.insertWallet c.userId], l.mem,
        l.acts ++ [(.stmt (.ensureWallet c.userId), l.view walletStore)]⟩ := by
      refine ⟨h.lawful.db, ?_, fun _ hk => hk⟩
      rw [under, applyAll_append]
      exact h.lawful.view.insertWallet c.userId
    have hlog : l'.log = l.log ++ [.insertWallet c.userId] := hm.log
    have hlaw' := hlaw.moved hm
    rw [← hlog] at hlaw'
    have hlock : Lock.wallet c.userId ∈ locks (l.log ++ [.insertWallet c.userId]) := by
      rw [locks_append]
      exact List.mem_append_right _ (by simp [locks, WalletOp.lock])
    have hnone : ¬(l'.db.accounts.wallets c.userId).isSome := by
      refine hm.isNone hlock fun hs => hw ?_
      rw [reads, under, isSome_applyAll]
      exact .inl hs
    refine ⟨hlaw', ?_, ?_, ?_, ?_, ?_⟩
    · rw [hlog, rows_append, h.log]
      simp [Wallet.rows]
    · rw [reads, under, isSome_applyAll, hlog]
      exact .inr hlock
    · have := hm.reads_subset
      refine List.Subset.trans h.ledger (List.Subset.trans (fun r hr => ?_) this)
      rw [reads, under, applyAll_append]
      exact hr
    · rw [hm.acts]
      intro d
      simpa [Call.debitAct] using h.acts d
    · rintro ⟨r, hr, hk⟩
      have hu : r.userId = c.userId := congrArg Prod.fst hk
      rw [reads, under, ledger_applyAll, hlog, rows_append, List.mem_append] at hr
      rcases hr with hr | hr
      · exact absurd (hu ▸ hlaw'.db.owned r hr) hnone
      · have hr' : r ∈ (reads l).ledger := by
          rw [reads, under, ledger_applyAll]
          exact List.mem_append_right _ (by simpa [Wallet.rows] using hr)
        exact absurd (hu ▸ h.lawful.view.owned r hr') hw

/-- The wallet is provided and the row inserted, unless there is one. -/
theorem insert_rg (h : Start c l₀ l) (hacc : c.Accepted l₀.db.owner)
    {settle : ℕ → WalletProg ConsumeResult}
    (hsettle : ∀ id l', Inserted c l₀ id l' →
      walletStore.rg Committed (CallPost c l₀) (settle id) l') :
    walletStore.rg Committed (CallPost c l₀)
      ((ensureWallet c.userId).bind fun _ =>
        (insertLedger c.userId c.type c.amount (c.row 0).metaData (c.row 0).idempotencyKey).bind
          fun
          | none => replay c.userId c.type c.amount (c.row 0).idempotencyKey
          | some insertedId => settle insertedId) l := by
  refine rg_run fun l₁ hm₁ hJ₁ _ ops g hrun => ?_
  have h₁ := h.moved hm₁
  simp only [WalletStmt.run, Prod.mk.injEq, true_and] at hrun
  obtain ⟨rfl, rfl⟩ := hrun
  refine rg_run fun l₂ hm₂ hJ₂ res ops g hrun => ?_
  have h₂ := h₁.provided hm₂
  simp only [WalletStmt.run] at hrun
  split at hrun
  · rename_i hany
    obtain ⟨rfl, rfl, rfl⟩ : none = res ∧ [] = ops ∧ l₂.gen = g := by simpa using hrun
    obtain ⟨r, hr, hk⟩ := List.any_eq_true.1 hany
    have hk' : r.key = c.key := by
      have : r.key = (c.userId, (c.row 0).idempotencyKey) := by simpa using hk
      exact this
    have hs := (h₂.start ⟨r, hr, hk'⟩).ran (d := l₂.view walletStore) (s := .insertLedger c.userId
      c.type c.amount (c.row 0).metaData (c.row 0).idempotencyKey) nofun
    exact replay_rg hs hacc ⟨r, by simpa [reads, under] using hr, hk'⟩
  · rename_i hany
    obtain ⟨rfl, rfl, rfl⟩ : some l₂.gen = res ∧ [.insertLedger (c.row l₂.gen)] = ops ∧
        l₂.gen + 1 = g := by
      simp only [Prod.mk.injEq] at hrun
      cases c <;> exact hrun
    have hfresh : ∀ r ∈ (reads l₂).ledger, r.key ≠ c.key := by
      intro r hr hk
      refine hany (List.any_eq_true.2 ⟨r, hr, ?_⟩)
      exact decide_eq_true hk
    refine hsettle _ _ ⟨⟨l₂.log, ⟨rfl, ⟨hJ₂.mono (Nat.le_succ _), ?_, ?_⟩, ?_, ?_, ?_⟩, h₂.rows⟩,
      fun r hr => hfresh r (h₂.ledger hr), ?_⟩
    · exact h₂.lawful.view.mono (Nat.le_succ _)
    · rw [locks_append]
      exact List.subset_append_left _ _
    · rw [c.row_key]
      exact hfresh
    · rw [c.row_userId]
      exact h₂.wallet
    · cases c <;> exact Nat.lt_succ_self _
    · intro d
      simpa [Call.debitAct] using h₂.acts d

/-! ### The balance -/

/-- The row is inserted and the balance moved: the view is lawful again. -/
structure Settled (c : Call) (l₀ : WLocal) (id : ℕ) (l : WLocal) : Prop where
  lawful : Lawful l.log l
  rows : rows l.log = rows l₀.log ++ [c.row id]
  key : ∀ r ∈ (reads l₀).ledger, r.key ≠ c.key
  acts : ∀ d, c.debitAct d ∈ l.acts → c.amount ≤ d.accounts.balance c.userId
  debit : c.type = .debit → ∃ d, c.debitAct d ∈ l.acts

theorem Settled.moved {id : ℕ} (h : Settled c l₀ id l) (hm : Moved l l') :
    Settled c l₀ id l' :=
  ⟨hm.lawful h.lawful, hm.log ▸ h.rows, h.key, hm.acts ▸ h.acts, hm.acts ▸ h.debit⟩

/-- The wallet is there, and the row alone has not moved the balance. -/
theorem Inserted.wallet_nonneg {id : ℕ} (h : Inserted c l₀ id l) :
    ((reads l).wallets c.userId).isSome ∧ 0 ≤ (reads l).balance c.userId := by
  obtain ⟨base, hp, -⟩ := h.pending
  have hreads : (reads l).wallets = (under base l).wallets := by
    rw [reads, hp.log, under, applyAll_append]
    rfl
  have hw := c.row_userId id ▸ hp.wallet
  have hb := hp.lawful.view.nonneg c.userId
  rw [Accounts.balance, ← hreads] at hb
  exact ⟨hreads ▸ hw, hb⟩

/-- The `UPDATE` of the balance settles the row, when it leaves no debt. -/
theorem Inserted.settle {id : ℕ} (h : Inserted c l₀ id l) {s : WalletStmt}
    (hb : 0 ≤ (reads l).balance c.userId + (c.row id).signed)
    (hs : s = .debitBalance c.userId c.amount → c.amount ≤ (reads l).balance c.userId)
    (hd : c.type = .debit → s = .debitBalance c.userId c.amount) :
    Settled c l₀ id ⟨l.gen, l.db, l.log ++ [.addBalance c.userId (c.row id).signed], l.mem,
      l.acts ++ [(.stmt s, l.view walletStore)]⟩ := by
  obtain ⟨base, hp, hrows⟩ := h.pending
  have hbal : (under base l).balance c.userId = (reads l).balance c.userId := by
    rw [reads, hp.log, under, under, balance_applyAll, balance_applyAll, delta_append]
    simp [delta]
  have hlog : l.log ++ [.addBalance c.userId (c.row id).signed] =
      base ++ [.insertLedger (c.row id), .addBalance (c.row id).userId (c.row id).signed] := by
    rw [hp.log, c.row_userId]
    simp
  refine ⟨⟨hp.lawful.db, ?_, fun _ hk => hk⟩, ?_, h.key, fun d hd' => ?_, fun ht => ?_⟩
  · rw [under, hlog, applyAll_append]
    refine hp.lawful.view.post hp.key hp.wallet hp.id ?_
    rwa [c.row_userId, hbal]
  · simp [hlog, rows_append, hrows, Wallet.rows]
  · rcases List.mem_append.1 hd' with hd' | hd'
    · exact absurd hd' (h.acts d)
    · simp only [Call.debitAct, List.mem_singleton, Prod.mk.injEq, TxAct.stmt.injEq] at hd'
      rw [hd'.2, view_eq]
      exact hs hd'.1.symm
  · exact ⟨l.view walletStore, by simp [Call.debitAct, hd ht]⟩

/-- The audit row and the return. -/
theorem audit_rg {id : ℕ} {b : Int} {e : AuditEvent} (h : Settled c l₀ id l)
    (hacc : c.Accepted l₀.db.owner) :
    walletStore.rg Committed (CallPost c l₀) ((recordAudit e).bind fun _ => .ret ⟨b, id, false⟩)
      l := by
  refine rg_run fun l₁ hm₁ hJ₁ _ ops g hrun => ?_
  have h₁ := h.moved hm₁
  simp only [WalletStmt.run, Prod.mk.injEq, true_and] at hrun
  obtain ⟨rfl, rfl⟩ := hrun
  have h₂ : Settled c l₀ id ⟨l₁.gen, l₁.db, l₁.log ++ [.insertAudit e.redacted], l₁.mem,
      l₁.acts ++ [(.stmt (.recordAudit e.redacted), l₁.view walletStore)]⟩ := by
    refine ⟨⟨hJ₁, ?_, fun _ hk => hk⟩, ?_, h₁.key, fun d hd => h₁.acts d ?_, fun ht => ?_⟩
    · rw [under, applyAll_append]
      exact h₁.lawful.view.audit e.redacted
    · simpa [rows_append, Wallet.rows] using h₁.rows
    · simpa [Call.debitAct] using hd
    · obtain ⟨d, hd⟩ := h₁.debit ht
      exact ⟨d, List.mem_append_left _ hd⟩
  intro l₂ he
  have h₃ := h₂.moved (.of_envs he)
  refine ⟨fun _ _ => h₃.lawful, fun r hr hk => absurd hk (h₃.key r hr),
    fun r hr hk => absurd hk (h₃.key r hr), fun hna => absurd hacc hna,
    fun d hd hlt => absurd (h₃.acts d hd) (by omega), ?_⟩
  rintro res hres
  cases hres
  refine .inr ⟨rfl, h₃.rows, fun ht => ?_⟩
  obtain ⟨d, hd⟩ := h₃.debit ht
  exact ⟨d, hd, h₃.acts d hd⟩

/-! ### The whole call -/

theorem Start.init (hl : Lawful l.log l) (ha : l.acts = []) : Start c l l :=
  ⟨rfl, hl, List.Subset.refl _, by simp [ha]⟩

/-- A session id is refused unless it is one of the user's. -/
theorem validate_rg {u : ℕ} {sid : Option ℕ} {f : Unit → WalletProg ConsumeResult}
    (h : Start c l₀ l) (hrej : (¬∀ s, sid = some s → l₀.db.owner s = some u) →
      ¬c.Accepted l₀.db.owner) (howner : l.db.owner = l₀.db.owner)
    (hf : ∀ l', Start c l₀ l' → (∀ s, sid = some s → l₀.db.owner s = some u) →
      walletStore.rg Committed (CallPost c l₀) (f ()) l') :
    walletStore.rg Committed (CallPost c l₀) ((validateSessionId u sid).bind f) l := by
  cases sid with
  | none => exact hf l h nofun
  | some s =>
    refine rg_run fun l₁ hm₁ hJ₁ res ops g hrun => ?_
    simp only [WalletStmt.run, Prod.mk.injEq] at hrun
    obtain ⟨rfl, rfl, rfl⟩ := hrun
    have h₁ := (h.moved hm₁).ran (d := l₁.view walletStore) (s := .sessionOwner s) nofun
    have howner₁ : l₁.db.owner s = l₀.db.owner s := congrFun (hm₁.owner.trans howner) s
    simp only [Prog.ret_bind, Prog.pure_eq, Prog.throw_eq]
    split
    · rename_i hnone
      refine fun l₂ he => (h₁.moved (.of_envs he)).raised fun _ _ _ _ _ => hrej fun hs => ?_
      have := hs s rfl
      rw [← howner₁, hnone] at this
      cases this
    · rename_i owner hsome
      split
      · rename_i hne
        refine fun l₂ he => (h₁.moved (.of_envs he)).raised fun _ _ _ _ _ => hrej fun hs => ?_
        have := hs s rfl
        rw [← howner₁, hsome] at this
        exact hne (Option.some.inj this)
      · rename_i heq
        refine hf _ h₁ ?_
        rintro s' hs'
        cases hs'
        rw [← howner₁, hsome, not_not.1 heq]

/-- **`consume` among other transactions.** -/
theorem consume_rg (u : ℕ) (amount : Int) (key : IdemKey) (m : Json) (sid : Option ℕ)
    (hl : Lawful l.log l) (ha : l.acts = []) :
    walletStore.rg Committed (CallPost (.consume u amount key m sid) l)
      (consume u amount key m sid) l := by
  have h : Start (.consume u amount key m sid) l l := .init hl ha
  unfold consume
  split
  · rename_i hle
    exact fun l₁ he => (h.moved (.of_envs he)).raised fun _ _ _ _ _ hacc => absurd hacc.1 (by omega)
  · rename_i hpos
    simp only [Prog.bind_eq, Prog.pure_eq, Prog.throw_eq]
    refine validate_rg h (fun hn hacc => hn hacc.2) rfl fun l₁ h₁ hsid => ?_
    have hacc : (Call.consume u amount key m sid).Accepted l.db.owner := ⟨by omega, hsid⟩
    refine insert_rg h₁ hacc fun id l₂ h₂ => ?_
    refine rg_run fun l₃ hm₃ hJ₃ res ops g hrun => ?_
    have h₃ := h₂.moved hm₃
    simp only [WalletStmt.run] at hrun
    split at hrun
    · rename_i hcond
      obtain ⟨rfl, rfl, rfl⟩ : some ((reads l₃).balance u - amount) = res ∧
          [.addBalance u (-amount)] = ops ∧ l₃.gen = g := by simpa using hrun
      refine audit_rg (h₃.settle (s := .debitBalance u amount) ?_ (fun _ => hcond.2) fun _ => rfl)
        hacc
      have : amount ≤ (reads l₃).balance u := hcond.2
      change 0 ≤ (reads l₃).balance u + -amount
      omega
    · obtain ⟨rfl, rfl, rfl⟩ : none = res ∧ [] = ops ∧ l₃.gen = g := by simpa using hrun
      exact fun l₄ he => ⟨nofun, fun r hr hk => absurd hk (h₃.key r hr),
        fun r hr hk => absurd hk (h₃.key r hr), fun hna => absurd hacc hna,
        fun d _ _ => ⟨_, rfl⟩, nofun⟩

/-- **`grant` among other transactions.** -/
theorem grant_rg (u : ℕ) (amount : Int) (key : IdemKey) (m : Json) (reason : String)
    (hl : Lawful l.log l) (ha : l.acts = []) :
    walletStore.rg Committed (CallPost (.grant u amount key m reason) l)
      (grant u amount key m reason) l := by
  have h : Start (.grant u amount key m reason) l l := .init hl ha
  unfold grant
  split
  · rename_i hle
    exact fun l₁ he => (h.moved (.of_envs he)).raised fun _ _ _ _ _ hacc =>
      absurd (show 0 < amount from hacc) (by omega)
  · rename_i hpos
    simp only [Prog.bind_eq, Prog.pure_eq]
    have hacc : (Call.grant u amount key m reason).Accepted l.db.owner := not_le.1 hpos
    refine insert_rg h hacc fun id l₂ h₂ => ?_
    refine rg_run fun l₃ hm₃ hJ₃ res ops g hrun => ?_
    have h₃ := h₂.moved hm₃
    simp only [WalletStmt.run] at hrun
    split at hrun
    · obtain ⟨rfl, rfl, rfl⟩ : some ((reads l₃).balance u + amount) = res ∧
          [.addBalance u amount] = ops ∧ l₃.gen = g := by simpa using hrun
      refine audit_rg (h₃.settle (s := .creditBalance u amount) ?_ nofun nofun) hacc
      have : 0 ≤ (reads l₃).balance u := h₃.wallet_nonneg.2
      change 0 ≤ (reads l₃).balance u + amount
      omega
    · rename_i hnone
      exact absurd h₃.wallet_nonneg.1 hnone

end ChatBackend.Wallet
