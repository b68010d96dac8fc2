import ChatBackend.Wallet.Service

/-!
# A debit by a session that has the wallet for itself

`consume_wp` says what `consume` leaves in the open transaction, for the four ways in which it can
end: the debit is made, the key is replayed, the balance is too low, or the call is refused.
-/

namespace ChatBackend.Wallet

open Prog

abbrev WalletWorld : Type := Store.World WalletDb ℕ Unit

/-- The row of a wallet, when it is missing. -/
def provision (a : Accounts) (u : ℕ) : List WalletOp :=
  if (a.wallets u).isSome then [] else [.insertWallet u]

/-- The writes of a debit on the accounts `a`. -/
def chargeOps (a : Accounts) (ledgerId userId : ℕ) (amount : Int) (key : IdemKey)
    (metaData : Json) (sessionId : Option ℕ) : List WalletOp :=
  provision a userId ++
    [.insertLedger ⟨ledgerId, userId, .debit, amount, metaData, key⟩, .addBalance userId (-amount),
      .insertAudit (AuditEvent.redacted ⟨userId, sessionId, .billingDebit, .obj
        [("ledgerTxId", .num ledgerId), ("amount", .num amount),
          ("newBalance", .num (a.balance userId - amount)),
          ("sessionId", .ofOption (sessionId.map fun (sid : ℕ) => .num sid)),
          ("model", .ofOption (metaData.get "model"))]⟩)]

theorem provision_spec (a : Accounts) (u : ℕ) :
    ((applyAll (provision a u) a).wallets u).isSome ∧
      (applyAll (provision a u) a).balance u = a.balance u ∧
      (applyAll (provision a u) a).ledger = a.ledger := by
  unfold provision
  split
  · rename_i h
    exact ⟨h, rfl, rfl⟩
  · simp [WalletOp.apply, Accounts.balance]

@[simp] theorem rows_provision (a : Accounts) (u : ℕ) : rows (provision a u) = [] := by
  unfold provision
  split <;> rfl

@[simp] theorem delta_provision (a : Accounts) (u v : ℕ) : delta v (provision a u) = 0 := by
  unfold provision
  split <;> rfl

@[simp] theorem audits_provision (a : Accounts) (u : ℕ) : audits (provision a u) = [] := by
  unfold provision
  split <;> rfl

@[simp] theorem rows_chargeOps (a : Accounts) (ledgerId u : ℕ) (amount : Int) (key : IdemKey)
    (metaData : Json) (sid : Option ℕ) :
    rows (chargeOps a ledgerId u amount key metaData sid) =
      [⟨ledgerId, u, .debit, amount, metaData, key⟩] := by
  simp [chargeOps, rows_append, rows]

@[simp] theorem delta_chargeOps (a : Accounts) (ledgerId u v : ℕ) (amount : Int) (key : IdemKey)
    (metaData : Json) (sid : Option ℕ) :
    delta v (chargeOps a ledgerId u amount key metaData sid) = if u = v then -amount else 0 := by
  simp [chargeOps, delta_append, delta]

section Statements

variable {α : Type} {C : TxAct WalletStmt → WalletWorld → Prop}
variable {Q : Except WalletError α → WalletWorld → Prop}

/-- A statement has one answer and one effect. -/
theorem wp_walletStmt (hC : ∀ s w, C (.stmt s) w) (s : WalletStmt) (k : s.Resp → WalletProg α)
    (w : WalletWorld) :
    (Prog.act (TxAct.stmt s) k : WalletProg α).wp walletStore.step C Q w ↔
      (k (s.run w.work.owner w.gen w.work.accounts).1).wp walletStore.step C Q
        ⟨w.db, ⟨w.work.owner,
            applyAll (s.run w.work.owner w.gen w.work.accounts).2.1 w.work.accounts⟩,
          (s.run w.work.owner w.gen w.work.accounts).2.2, ()⟩ := by
  rw [Store.wp_stmt]
  constructor
  · rintro ⟨-, h⟩
    have := h _ _ _ () (rfl : walletStore.exec s w.gen w.mem w.work _ _ _ ())
    rwa [walletStore_view] at this
  · intro h
    refine ⟨hC s w, ?_⟩
    rintro r ops g m (he : s.run _ _ _ = _)
    rw [he] at h
    rwa [walletStore_view]

end Statements

variable {C : TxAct WalletStmt → WalletWorld → Prop}

/-- The check of the session reads only. -/
theorem validate_wp (hC : ∀ s w, C (.stmt s) w) {Q : Except WalletError Unit → WalletWorld → Prop}
    {u : ℕ} {sid : Option ℕ} {w : WalletWorld} (valid : Q (.ok ()) w)
    (refused : ∀ e, (∀ m, e ≠ .insufficientCredits m) → Q (.error e) w) :
    (validateSessionId u sid).wp walletStore.step C Q w := by
  cases sid with
  | none => exact valid
  | some s =>
    simp only [validateSessionId, validateSession, sessionOwner, TxProg.stmt, bind_eq, act_bind,
      ret_bind, wp_walletStmt hC, WalletStmt.run, applyAll_nil]
    cases w.work.owner s with
    | none => exact refused _ nofun
    | some o =>
      by_cases ho : o = u
      · simpa [ho] using valid
      · simpa [ho] using refused (.forbidden "session does not belong to user") nofun

/-- A key that has a row. -/
theorem replay_wp (hC : ∀ s w, C (.stmt s) w)
    {Q : Except WalletError ConsumeResult → WalletWorld → Prop} {u : ℕ} {ty : TxType} {amount : Int}
    {key : IdemKey} {w : WalletWorld} {r : LedgerTransaction}
    (hr : w.work.accounts.ledger.find? (fun r => r.key = (u, key)) = some r)
    (replayed : r.type = ty → r.amount = amount → ∀ res, Q (.ok res) w)
    (refused : ∀ e, (∀ m, e ≠ .insufficientCredits m) → Q (.error e) w) :
    (replay u ty amount key).wp walletStore.step C Q w := by
  simp only [replay, existingTx, currentBalance, TxProg.stmt, bind_eq, act_bind, ret_bind,
    wp_walletStmt hC, WalletStmt.run, applyAll_nil, hr]
  split
  · exact refused _ nofun
  · rename_i h
    rw [not_or, not_not, not_not] at h
    simpa only [wp_walletStmt hC, WalletStmt.run, applyAll_nil, pure_eq, wp_ret] using
      replayed h.1 h.2 _

/-- **The four ends of a debit.** -/
theorem consume_wp (hC : ∀ s w, C (.stmt s) w)
    {Q : Except WalletError ConsumeResult → WalletWorld → Prop} {u : ℕ} {amount : Int}
    {key : IdemKey} {metaData : Json} {sid : Option ℕ} {w : WalletWorld}
    (charged : (∀ r ∈ w.work.accounts.ledger, r.key ≠ (u, key)) → 0 < amount →
      amount ≤ w.work.accounts.balance u → ∀ res, Q (.ok res) ⟨w.db, ⟨w.work.owner,
        applyAll (chargeOps w.work.accounts w.gen u amount key metaData sid) w.work.accounts⟩,
        w.gen + 1, ()⟩)
    (replayed : ∀ r ∈ w.work.accounts.ledger, r.key = (u, key) → r.type = .debit →
      r.amount = amount → ∀ res, Q (.ok res) ⟨w.db, ⟨w.work.owner,
        applyAll (provision w.work.accounts u) w.work.accounts⟩, w.gen, ()⟩)
    (poor : (∀ r ∈ w.work.accounts.ledger, r.key ≠ (u, key)) → 0 < amount →
      w.work.accounts.balance u < amount → ∀ m a,
      Q (.error (.insufficientCredits m)) ⟨w.db, ⟨w.work.owner, a⟩, w.gen + 1, ()⟩)
    (refused : ∀ e a, (∀ m, e ≠ .insufficientCredits m) →
      Q (.error e) ⟨w.db, ⟨w.work.owner, a⟩, w.gen, ()⟩) :
    (consume u amount key metaData sid).wp walletStore.step C Q w := by
  obtain ⟨db, ⟨owner, a⟩, g, ⟨⟩⟩ := w
  simp only at charged replayed poor refused
  unfold consume
  split
  · exact refused _ _ nofun
  rename_i hpos
  rw [bind_eq, wp_bind]
  refine validate_wp hC ?_ fun e he => refused e a he
  obtain ⟨hw, hb, hl⟩ := provision_spec a u
  simp only [bindPost, ensureWallet, insertLedger, bind_eq, TxProg.stmt, act_bind, ret_bind,
    wp_walletStmt hC, WalletStmt.run]
  rw [← provision, hl]
  cases hfind : a.ledger.find? (fun r => r.key = (u, key)) with
  | some r =>
    have hr := List.mem_of_find?_eq_some hfind
    have hk : r.key = (u, key) := by simpa using List.find?_some hfind
    have hany : (a.ledger.any fun r => r.key = (u, key)) = true :=
      List.any_eq_true.2 ⟨r, hr, by simpa using hk⟩
    simp only [hany, if_true, applyAll_nil]
    refine replay_wp hC (by simpa only [hl] using hfind) (fun hty ham => ?_) fun e he => ?_
    · exact replayed r hr hk hty ham
    · exact refused e _ he
  | none =>
    have hfresh : ∀ r ∈ a.ledger, r.key ≠ (u, key) := by
      simpa using List.find?_eq_none.1 hfind
    have hany : (a.ledger.any fun r => r.key = (u, key)) = false := by
      simpa [List.any_eq_false] using hfresh
    simp only [hany, Bool.false_eq_true, if_false, wp_walletStmt hC, WalletStmt.run]
    have hbal : (applyAll [.insertLedger ⟨g, u, .debit, amount, metaData, key⟩]
        (applyAll (provision a u) a)).balance u = a.balance u := hb
    have hwal : ((applyAll [.insertLedger ⟨g, u, .debit, amount, metaData, key⟩]
        (applyAll (provision a u) a)).wallets u).isSome := hw
    by_cases hle : amount ≤ a.balance u
    · simp only [hbal, hwal, hle, and_self, if_true, wp_walletStmt hC, WalletStmt.run, pure_eq,
        wp_ret]
      have := charged hfresh (by omega) hle ⟨a.balance u - amount, g, false⟩
      simpa only [chargeOps, applyAll_append, applyAll_cons, applyAll_nil] using this
    · simp only [hbal, hle, and_false, if_false, throw_eq, wp_raise, applyAll_nil]
      exact poor hfresh (by omega) (by omega) _ _

end ChatBackend.Wallet
