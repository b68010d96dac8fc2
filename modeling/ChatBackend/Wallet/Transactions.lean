import ChatBackend.Foundations.Schedule
import ChatBackend.Wallet.Concurrency

/-!
# Sessions of wallet transactions

A client of the service makes calls and ends its transactions, adaptively: what it does next may
depend on what the calls returned. As in `session_scope`, a call that raises rolls the
transaction back, and a client goes on only then.

* `Client.run_rg`: a client keeps the law of the ledger among others.
* `wallet_ledger`: the law in every committed state, and the outcome of every call.
-/

namespace ChatBackend.Wallet

open Store

/-- What a client does. -/
inductive ClientAct : Type
  | call (c : Call)
  | commit
  | rollback

@[reducible] def ClientAct.Resp : ClientAct → Type
  | call _ => Except WalletError ConsumeResult
  | commit => Unit
  | rollback => Unit

/-- A sequence of transactions, as a tree over the outcomes of its calls. -/
abbrev Client : Type := Prog ClientAct ClientAct.Resp WalletError Unit

/-- A call whose exception rolls the transaction back. -/
def Call.attempt (c : Call) : WalletProg (Except WalletError ConsumeResult) :=
  Prog.tryCatch (c.prog.bind fun res => .ret (.ok res)) fun e =>
    TxProg.rollback.bind fun _ => .ret (.error e)

/-- The statements of a client. -/
def Client.run : Client → WalletProg Unit
  | .ret a => .ret a
  | .raise e => .raise e
  | .act (.call c) k => c.attempt.bind fun o => Client.run (k o)
  | .act .commit k => TxProg.commit.bind fun r => Client.run (k r)
  | .act .rollback k => TxProg.rollback.bind fun r => Client.run (k r)

variable {l : WLocal}

theorem Call.prog_rg (c : Call) (hl : Lawful l.log l) (ha : l.acts = []) :
    walletStore.rg Committed (CallPost c l) c.prog l := by
  cases c with
  | consume u amount key m sid => exact consume_rg u amount key m sid hl ha
  | grant u amount key m reason => exact grant_rg u amount key m reason hl ha

/-- A call that returns leaves a lawful view. -/
theorem Call.prog_lawful (c : Call) (hl : Lawful l.log l) :
    walletStore.rg Committed (fun o l' => ∀ res, o = .ok res → Lawful l'.log l') c.prog l :=
  rg_setActs (c.prog_rg (l := l.setActs []) ⟨hl.db, hl.view, hl.held⟩ rfl)
    fun _ _ _ h res ho => have h' := h.lawful res ho; ⟨h'.db, h'.view, h'.held⟩

/-- With no transaction open, the view is the committed database. -/
theorem Lawful.of_nil (hJ : Committed l.gen l.db) (hlog : l.log = []) : Lawful l.log l := by
  refine ⟨hJ, ?_, fun _ h => h⟩
  rw [hlog]
  exact hJ

theorem Call.attempt_rg (c : Call) (hl : Lawful l.log l) :
    walletStore.rg Committed (fun _ l' => Lawful l'.log l') c.attempt l := by
  refine rg_tryCatch (rg_bind ?_)
  refine rg_mono (fun o l' h => ?_) (c.prog_lawful hl)
  cases o with
  | ok res => exact fun l'' he => (Moved.of_envs he).lawful (h res rfl)
  | error e =>
    refine rg_rollback fun l₁ _ hJ l₂ he => ?_
    have hm := Moved.of_envs he
    exact .of_nil (hm.inv hJ) hm.log

/-- **A client keeps the law among other sessions.** -/
theorem Client.run_rg (p : Client) (hl : Lawful l.log l) :
    walletStore.rg Committed (fun _ _ => True) p.run l := by
  induction p generalizing l with
  | ret a => exact fun _ _ => trivial
  | raise e => exact fun _ _ => trivial
  | act e k ih =>
    cases e with
    | call c =>
      refine rg_bind (rg_mono (fun o l' h => ?_) (c.attempt_rg hl))
      cases o with
      | ok o => exact ih o h
      | error e => trivial
    | commit =>
      refine rg_commit fun l₁ he hJ => ?_
      have h₁ : Lawful l₁.log l₁ := (Moved.of_envs he).lawful hl
      have hview : Committed l₁.gen (l₁.view walletStore) := by
        rw [view_eq]
        exact h₁.view
      exact ⟨hview, ih () (.of_nil hview rfl)⟩
    | rollback => exact rg_rollback fun l₁ he hJ => ih () (.of_nil hJ rfl)

/-! ## Pools of clients -/

variable {ι : Type} [DecidableEq ι]

/-- Pools of sessions on the wallet tables. -/
abbrev WPool (ι : Type) : Type :=
  Pool ι WalletStmt WalletStmt.Resp WalletDb WalletOp ℕ Unit WalletError Unit

/-- The pool in which every session is about to run its client. -/
def start (g : ℕ) (d : WalletDb) (clients : ι → Client) : WPool ι :=
  ⟨d, g, fun i => ⟨some (clients i).run, [], ()⟩, []⟩

omit [DecidableEq ι] in
theorem start_inv {g : ℕ} {d : WalletDb} (hd : d.accounts.Inv g) (clients : ι → Client) :
    (start g d clients).Inv walletStore Committed fun _ => True :=
  ⟨hd, fun _ _ _ => walletStore.compat_nil _, fun i _ p hp => ⟨[], by
    obtain rfl : (clients i).run = p := Option.some.inj hp
    exact (clients i).run_rg (.of_nil hd rfl)⟩⟩

theorem committed_mono (g g' : ℕ) (d : WalletDb) (hg : g ≤ g') (h : Committed g d) :
    Committed g' d := h.mono hg

/-- Some calls of a transaction, one after the other. -/
def runCalls : List Call → WalletProg Unit
  | [] => .ret ()
  | c :: cs => c.prog.bind fun _ => runCalls cs

theorem runCalls_rg (cs : List Call) (hl : Lawful l.log l) :
    walletStore.rg Committed (fun o l' => o = .ok () → Lawful l'.log l') (runCalls cs) l := by
  induction cs generalizing l with
  | nil => exact fun l' he _ => (Moved.of_envs he).lawful hl
  | cons c cs ih =>
    refine rg_bind (rg_mono (fun o l' h => ?_) (c.prog_lawful hl))
    cases o with
    | ok res => exact ih (h res rfl)
    | error e => exact nofun

/-- The programs of the calls are made of statements. -/
theorem Call.prog_only (c : Call) : c.prog.Only Pool.IsStmt := by
  cases c with
  | consume u amount key m sid => exact consume_only
  | grant u amount key m reason => exact grant_only

/-- What a call of session `i` has done that was made in `P` and has ended with `o` in `P'`, having
performed `acts`. -/
structure CallOutcome (i : ι) (c : Call) (P : WPool ι) (acts : List (TxAct WalletStmt × WalletDb))
    (o : Except WalletError ConsumeResult) (P' : WPool ι) : Prop where
  /-- The same key with the same type and amount: the id of the row, and nothing written. -/
  replayed : ∀ r ∈ (P.view walletStore i).accounts.ledger, r.key = c.key → r.type = c.type →
    r.amount = c.amount → c.Accepted P.db.owner →
    (P'.thr i).log = (P.thr i).log ∧ ∃ b, o = .ok ⟨b, r.id, true⟩
  /-- The same key with another type or amount is refused. -/
  conflict : ∀ r ∈ (P.view walletStore i).accounts.ledger, r.key = c.key →
    r.type ≠ c.type ∨ r.amount ≠ c.amount → ∃ e, o = .error e
  /-- So is a call without a positive amount, or for a session that is not the user's. -/
  rejected : ¬c.Accepted P.db.owner → ∃ e, o = .error e
  /-- A balance that is too low when the debit looks at it raises. -/
  insufficient : ∀ d, c.debitAct d ∈ acts → d.accounts.balance c.userId < c.amount →
    ∃ m, o = .error (.insufficientCredits m)
  /-- A call that returns has found its row, or has written it; a debit has then found enough. -/
  outcome : ∀ res, o = .ok res →
    (res.idempotentReplay = true ∧ (P'.thr i).log = (P.thr i).log ∧
      ∃ r ∈ (P'.view walletStore i).accounts.ledger,
        r.id = res.ledgerTxId ∧ r.key = c.key ∧ r.type = c.type ∧ r.amount = c.amount) ∨
    (res.idempotentReplay = false ∧
      rows (P'.thr i).log = rows (P.thr i).log ++ [c.row res.ledgerTxId] ∧
      (c.type = .debit → ∃ d, c.debitAct d ∈ acts ∧ c.amount ≤ d.accounts.balance c.userId))
  /-- After a rollback the session has left nothing: what is new in the committed database, the
  others have committed. -/
  rolledBack : ∀ p P'', Pool.Perform walletStore i p P' .rollback () P'' →
    Pool.Others walletStore i P P'' ∧ (P''.thr i).log = []

/-- **The wallet ledger under interleaving.** In every pool that is reached, in every state between
two statements, the committed balances are the credits less the debits and not negative, and a
user has at most one row for a key. A call that is made in such a pool, after any calls `cs` of
the same transaction and while the other sessions move, has the outcome of `CallOutcome`. -/
theorem wallet_ledger {g : ℕ} {d : WalletDb} (hd : d.accounts.Inv g) (clients : ι → Client)
    {P : WPool ι} (hP : Pool.Reaches walletStore (start g d clients) P) :
    (∀ u, P.db.accounts.balance u =
        total u .credit P.db.accounts.ledger - total u .debit P.db.accounts.ledger ∧
      0 ≤ P.db.accounts.balance u) ∧
    (∀ r ∈ P.db.accounts.ledger, ∀ r' ∈ P.db.accounts.ledger, r.userId = r'.userId →
      r.idempotencyKey = r'.idempotencyKey → r = r') ∧
    (P.db.accounts.ledger.map LedgerTransaction.key).Nodup ∧
    ∀ i, (P.thr i).log = [] →
      ∀ cs acts₁ P₁, Pool.During walletStore i (runCalls cs) P acts₁ (.ok ()) P₁ →
        ∀ c acts o P₂, Pool.During walletStore i c.prog P₁ acts o P₂ →
          CallOutcome i c P₁ acts o P₂ := by
  have hinv : P.Inv walletStore Committed fun _ => True :=
    rg_sound hP (start_inv hd clients) committed_mono
  have hlaw : P.db.accounts.Inv P.gen := hinv.db
  refine ⟨fun u => ⟨hlaw.law u, hlaw.nonneg u⟩,
    fun r hr r' hr' hu hk => hlaw.eq_of_key hr hr' (Prod.ext hu hk),
    List.pairwise_map.2 hlaw.unique, ?_⟩
  intro i hlog cs acts₁ P₁ hcs c acts o P₂ hc
  have hinv' : P.Inv walletStore Committed (· ≠ i) :=
    ⟨hinv.db, hinv.sep, fun j _ => hinv.thr j trivial⟩
  have hcalls := runCalls_rg (l := P.local i []) cs (.of_nil hlaw hlog)
  obtain ⟨hl₁, hinv₁⟩ := rg_during hcs hcalls hinv' committed_mono
  have hl₁' : Lawful (P₁.thr i).log (P₁.local i []) := by
    have h := hl₁ rfl
    exact ⟨h.db, h.view, h.held⟩
  have hcall := c.prog_rg (l := P₁.local i []) hl₁' rfl
  obtain ⟨hpost, -⟩ := rg_during hc hcall hinv₁ committed_mono
  have hview : ∀ (P : WPool ι) acts, (P.view walletStore i).accounts = reads (P.local i acts) := by
    intro P acts
    exact congrArg WalletDb.accounts (walletStore_view ..)
  refine ⟨fun r hr => hpost.replayed r (hview P₁ [] ▸ hr),
    fun r hr => hpost.conflict r (hview P₁ [] ▸ hr), hpost.rejected, hpost.insufficient,
    fun res ho => ?_, fun p P'' hp => ?_⟩
  · rw [hview P₂ ([] ++ acts)]
    exact hpost.outcome res ho
  · cases hp
    exact ⟨(hc.others c.prog_only).trans (.of_eq rfl rfl), by simp⟩

/-- The wallet statements leave no choice: they are their own handler. -/
def walletHandler : Handler walletStore Unit where
  answer _ s g _ d := match s.run d.owner g d.accounts with
    | (r, ops, g') => (r, ops, g', (), ())
  ok _ s g _ d := rfl
  compat l l' := (locks l).all fun k => k ∉ locks l'
  compat_ok h k hk := by simpa using List.all_eq_true.1 h k hk

/-- No accounts, no sessions. -/
def emptyDb : WalletDb := ⟨fun _ => none, ⟨fun _ => none, [], []⟩⟩

theorem emptyDb_inv : emptyDb.accounts.Inv 0 :=
  ⟨fun _ => rfl, fun _ => le_refl _, .nil, nofun, nofun⟩

/-- A grant of 3, committed. -/
def granting : Client :=
  .act (.call (.grant 7 3 (.text "tx") .null "renewal")) fun _ => .act .commit fun _ => .ret ()

/-- A debit of 2 under the key `key`, committed. -/
def spending (key : IdemKey) : Client :=
  .act (.call (.consume 7 2 key .null none)) fun _ => .act .commit fun _ => .ret ()

/-- A grant of 3 and two debits of 2. -/
def racing : Fin 3 → Client
  | 0 => granting
  | 1 => spending (.text "a")
  | 2 => spending (.text "b")

/-- The grant and one debit are committed. -/
def raced (P : WPool (Fin 3)) : Bool :=
  P.db.accounts.ledger.length = 2 ∧ P.db.accounts.balance 7 = 1

/-- The second debit comes too late. -/
theorem wallet_ledger_race : ∃ P : WPool (Fin 3), raced P ∧ P.db.accounts.balance 7 =
    total 7 .credit P.db.accounts.ledger - total 7 .debit P.db.accounts.ledger := by
  have hids : ∀ i : Fin 3, i ∈ [0, 1, 2] := by decide
  have hplay : (Pool.play walletHandler [0, 1, 2] [0, 0, 0, 0, 0, 1, 1, 2, 2, 1, 1, 1, 2, 2]
      (start 0 emptyDb racing) ()).any (fun r => raced r.1) = true := by rfl
  obtain ⟨P, hP, hraced⟩ := Pool.exists_of_play hids hplay
  exact ⟨P, hraced, ((wallet_ledger emptyDb_inv racing hP).1 7).1⟩

end ChatBackend.Wallet
