import ChatBackend.Auth.Service
import Mathlib

/-!
# Requests one after another

What a request of the authentication service does to the refresh tokens when it has the tables for
itself (`serve_wp`), and what holds after any sequence of requests (`Requests`).

* `Requests.wellFormed`: ids and hashes of tokens are distinct.
* `Requests.later`: a used token stays used, a revoked one stays revoked.
* `reuse_detection`: a refresh succeeds with an active token only, and a used token that is presented
  again ends the chain of its device.
-/

namespace ChatBackend.Auth

open Prog

abbrev AuthWorld : Type := Store.World AuthDb (ℕ × ℕ) Unit

/-- No user, no device, no token. -/
def AuthDb.empty : AuthDb := ⟨[], [], [], []⟩

/-- No transaction is open. -/
def idle (g : ℕ × ℕ) (d : AuthDb) : AuthWorld := ⟨d, d, g, ()⟩

/-! ## The statements -/

section Statements

variable {α : Type} {Q : Except AuthError α → AuthWorld → Prop}

/-- At a given time a statement has one answer and one effect. -/
theorem wp_authStmt (s : AuthStmt) (k : s.Resp → AuthProg α) (w : AuthWorld) :
    (Prog.act (TxAct.stmt s) k : AuthProg α).wp authStore.step (fun _ _ => True) Q w ↔
      ∀ t, w.gen.2 ≤ t →
        (k (s.run t w.gen.1 w.work).1).wp authStore.step (fun _ _ => True) Q
          ⟨w.db, authStore.view (s.run t w.gen.1 w.work).2.1 w.work,
            ((s.run t w.gen.1 w.work).2.2, t), ()⟩ := by
  rw [Store.wp_stmt]
  constructor
  · rintro ⟨-, h⟩ t ht
    exact h _ _ (_, t) () ⟨t, ht, rfl, rfl⟩
  · intro h
    refine ⟨trivial, ?_⟩
    rintro r ops ⟨g, t⟩ m ⟨_, ht, rfl, hrun⟩
    have := h _ ht
    rwa [hrun] at this

end Statements

/-- The statements that leave the tokens as they are. -/
def LeavesTokens : TxAct AuthStmt → Prop
  | .stmt (.insertRefreshToken ..) => False
  | .stmt (.markUsed _) => False
  | .stmt (.revokeChain ..) => False
  | .stmt _ => True
  | .commit => False
  | .rollback => False

/-- The open transaction began on `d` and has not changed the tokens. -/
def Unchanged (g : ℕ × ℕ) (d : AuthDb) (w : AuthWorld) : Prop :=
  w.db = d ∧ w.work.tokens = d.tokens ∧ g ≤ w.gen

theorem LeavesTokens.unchanged {g : ℕ × ℕ} {d : AuthDb} (e : TxAct AuthStmt)
    (he : LeavesTokens e) (w : AuthWorld) (r : TxAct.Resp AuthStmt.Resp e) (w' : AuthWorld)
    (hw : Unchanged g d w) (hT : authStore.step w e r w') : Unchanged g d w' := by
  cases e with
  | commit => exact he.elim
  | rollback => exact he.elim
  | stmt s =>
    obtain ⟨ops, gen, mem, hx, rfl⟩ := hT
    refine ⟨hw.1, ?_, hw.2.2.trans (authStore.gen_le hx)⟩
    obtain ⟨t, -, -, hrun⟩ := hx
    have hops : ops = (s.run t w.gen.1 w.work).2.1 := by rw [hrun]
    have hview : (authStore.view ops w.work).tokens = w.work.tokens := by
      rw [hops]
      cases s with
      | insertRefreshToken => exact he.elim
      | markUsed => exact he.elim
      | revokeChain => exact he.elim
      | uuid4 => rfl
      | now => rfl
      | selectDevice => rfl
      | insertUser => rfl
      | selectIdentity => rfl
      | hasApple => rfl
      | selectRefreshToken => rfl
      | touchDevice => simp only [AuthStmt.run]; split <;> rfl
      | insertDevice => simp only [AuthStmt.run]; split <;> rfl
      | upsertDevice => simp only [AuthStmt.run]; split <;> rfl
      | insertIdentity => simp only [AuthStmt.run]; split <;> rfl
    exact hview.trans hw.2.1

/-! ## The parts of the methods that leave the tokens -/

section Only

variable {cfg : AuthSettings}

theorem requireIssuer_only : (requireIssuer cfg).Only LeavesTokens := by
  unfold requireIssuer
  split <;> trivial

theorem resolveDeviceId_only (dev : Option DeviceId) : (resolveDeviceId dev).Only LeavesTokens := by
  cases dev with
  | none => exact ⟨trivial, fun _ => trivial⟩
  | some dev =>
    show (if dev = .given "" then uuid4 else pure dev : AuthProg DeviceId).Only LeavesTokens
    split
    · exact ⟨trivial, fun _ => trivial⟩
    · trivial

theorem findOrCreateIdentity_only (dev : DeviceId) :
    (findOrCreateIdentity dev).Only LeavesTokens := by
  refine ⟨trivial, fun o => ?_⟩
  cases o with
  | some u => exact ⟨trivial, fun _ => trivial⟩
  | none =>
    refine ⟨trivial, fun u => ⟨trivial, fun _ => ⟨trivial, fun o => ?_⟩⟩⟩
    cases o <;> trivial

theorem linkTarget_only (u : ℕ) : (linkTarget u).Only LeavesTokens := by
  refine ⟨trivial, fun b => ?_⟩
  cases b with
  | false => trivial
  | true => exact ⟨trivial, fun _ => trivial⟩

theorem resolveAppleUser_only (sub : String) (email : Option String) (dev : DeviceId) :
    (resolveAppleUser sub email dev).Only LeavesTokens := by
  refine ⟨trivial, fun o => ?_⟩
  cases o with
  | some u => trivial
  | none =>
    show ((findOrCreateIdentity dev).bind _).Only LeavesTokens
    refine .bind (findOrCreateIdentity_only dev) fun u => ?_
    show ((linkTarget u).bind _).Only LeavesTokens
    refine .bind (linkTarget_only u) fun v => ⟨trivial, fun _ => ⟨trivial, fun o => ?_⟩⟩
    cases o <;> trivial

/-- The part of `register_or_token` before a pair is issued. -/
def registerFirst (cfg : AuthSettings) (dev : Option DeviceId) : AuthProg (ℕ × DeviceId) :=
  (requireIssuer cfg).bind fun _ => (resolveDeviceId dev).bind fun dev' =>
    (findOrCreateIdentity dev').bind fun u => .ret (u, dev')

/-- The part of `sign_in_with_apple` before a pair is issued. -/
def appleFirst (cfg : AuthSettings) (verified : Except AuthError VerifiedAppleIdentity)
    (dev : Option DeviceId) : AuthProg (ℕ × DeviceId) :=
  (requireIssuer cfg).bind fun _ => match verified with
    | .error e => .raise e
    | .ok identity => (resolveDeviceId dev).bind fun dev' =>
      (resolveAppleUser identity.appleSub identity.email dev').bind fun u =>
        (upsertDevice dev' u).bind fun _ => .ret (u, dev')

theorem registerOrToken_split (dev : Option DeviceId) :
    registerOrToken cfg dev = (registerFirst cfg dev).bind fun x =>
      (issuePair cfg x.1 x.2).bind fun tokens => TxProg.commit.bind fun _ => .ret tokens := by
  simp only [registerOrToken, registerFirst, bind_eq, pure_eq, Prog.bind_assoc, ret_bind]

theorem signInWithApple_split (verified : Except AuthError VerifiedAppleIdentity)
    (dev : Option DeviceId) :
    signInWithApple cfg verified dev = (appleFirst cfg verified dev).bind fun x =>
      (issuePair cfg x.1 x.2).bind fun tokens => TxProg.commit.bind fun _ => .ret tokens := by
  cases verified with
  | error e =>
    simp only [signInWithApple, appleFirst, bind_eq, throw_eq, Prog.bind_assoc, raise_bind]
  | ok identity =>
    simp only [signInWithApple, appleFirst, bind_eq, pure_eq, Prog.bind_assoc, ret_bind]

theorem registerFirst_only (dev : Option DeviceId) : (registerFirst cfg dev).Only LeavesTokens :=
  .bind requireIssuer_only fun _ => .bind (resolveDeviceId_only dev)
    fun dev' => .bind (findOrCreateIdentity_only dev') fun _ => trivial

theorem appleFirst_only (verified : Except AuthError VerifiedAppleIdentity)
    (dev : Option DeviceId) : (appleFirst cfg verified dev).Only LeavesTokens := by
  refine .bind requireIssuer_only fun _ => ?_
  cases verified with
  | error e => trivial
  | ok identity =>
    exact .bind (resolveDeviceId_only dev) fun dev' =>
      .bind (resolveAppleUser_only _ _ dev') fun _ => ⟨trivial, fun _ => trivial⟩

end Only

/-! ## What a request does -/

/-- The row of a token that is issued at the time `t`, from the draws `n` and `n + 1`. -/
def issuedRow (cfg : AuthSettings) (u : ℕ) (dev : DeviceId) (n t : ℕ) : AuthRefreshToken :=
  ⟨n, u, dev, .sha256 (n + 1), t + cfg.refreshTtl, none, none⟩

/-- What the client gets with it. -/
def issuedTokens (cfg : AuthSettings) (u : ℕ) (dev : DeviceId) (n : ℕ) : IssuedTokens :=
  ⟨u, dev, ⟨u, dev⟩, cfg.accessTtl, n + 1, cfg.refreshTtl⟩

/-- What a request that is served on the tables `d` does to the tokens. -/
inductive Effect (cfg : AuthSettings) (g : ℕ × ℕ) (d : AuthDb) :
    AuthCall → Except AuthError IssuedTokens → ℕ × ℕ → AuthDb → Prop
  | failed {c : AuthCall} {e : AuthError} {g' : ℕ × ℕ} (hg : g ≤ g')
      (hc : ∀ t row, c = .refresh t → cfg.configured = true → d.token t = some row →
        row.usedAt = none ∧ (row.revokedAt = none → row.expiresAt ≤ g'.2)) :
      Effect cfg g d c (.error e) g' d
  | signedIn {c : AuthCall} {g' : ℕ × ℕ} {d' : AuthDb} {u n t : ℕ} {dev : DeviceId}
      (hc : ∀ t, c ≠ .refresh t) (hn : g.1 ≤ n) (hn' : n + 2 ≤ g'.1) (ht : g.2 ≤ t) (ht' : t ≤ g'.2)
      (htokens : d'.tokens = d.tokens ++ [issuedRow cfg u dev n t]) :
      Effect cfg g d c (.ok (issuedTokens cfg u dev n)) g' d'
  | rotated {tok : RefreshToken} {row : AuthRefreshToken} {g' : ℕ × ℕ} {d' : AuthDb}
      {n t t' : ℕ} (hcfg : cfg.configured = true) (hrow : d.token tok = some row)
      (hactive : row.Active)
      (hexp : g.2 < row.expiresAt) (hn : g.1 ≤ n) (hn' : n + 2 ≤ g'.1) (ht : g.2 ≤ t)
      (ht' : t ≤ g'.2)
      (htokens : d'.tokens = d.tokens.map (AuthRefreshToken.markUsed row.id t') ++
        [issuedRow cfg row.userId row.deviceId n t]) :
      Effect cfg g d (.refresh tok) (.ok (issuedTokens cfg row.userId row.deviceId n)) g' d'
  | reused {tok : RefreshToken} {row : AuthRefreshToken} {g' : ℕ × ℕ} {d' : AuthDb} {t : ℕ}
      (hg : g ≤ g') (hrow : d.token tok = some row) (hused : row.usedAt ≠ none)
      (htokens : d'.tokens =
        d.tokens.map (AuthRefreshToken.revoke (d.chain row.userId row.deviceId) t)) :
      Effect cfg g d (.refresh tok) (.error (.unauthorized "refresh token reuse detected")) g' d'

section Methods

variable {cfg : AuthSettings} {g : ℕ × ℕ} {d : AuthDb}

/-- What a method leaves for `session_scope`. -/
def Leaves (cfg : AuthSettings) (g : ℕ × ℕ) (d : AuthDb) (c : AuthCall)
    (o : Except AuthError IssuedTokens) (w : AuthWorld) : Prop :=
  Effect cfg g d c o w.gen w.db ∧ ∀ tokens, o = .ok tokens → w.work = w.db

/-- `_issue_pair` and the commit. -/
theorem issuePair_wp {Q : Except AuthError IssuedTokens → AuthWorld → Prop} {u : ℕ}
    {dev : DeviceId} {w : AuthWorld}
    (unconfigured : cfg.configured = false →
      Q (.error (.serviceUnavailable "auth issuer is not configured")) w)
    (issued : ∀ t, w.gen.2 ≤ t → ∀ d' : AuthDb,
      d'.tokens = w.work.tokens ++ [issuedRow cfg u dev w.gen.1 t] →
      Q (.ok (issuedTokens cfg u dev w.gen.1)) ⟨d', d', (w.gen.1 + 2, t), ()⟩) :
    ((issuePair cfg u dev).bind fun tokens => TxProg.commit.bind fun _ => .ret tokens).wp
      authStore.step (fun _ _ => True) Q w := by
  cases hc : cfg.configured with
  | false =>
    simpa [issuePair, requireIssuer, hc] using unconfigured hc
  | true =>
    have hret : requireIssuer cfg = .ret () := by simp [requireIssuer, hc]
    simp only [issuePair, hret, bind_eq, pure_eq, insertRefreshToken, TxProg.stmt, TxProg.commit,
      act_bind, ret_bind, wp_authStmt, Store.wp_commit]
    exact fun t ht => ⟨trivial, issued t ht _ rfl⟩

/-- A method whose first part leaves the tokens, and that then issues a pair. -/
theorem signIn_wp {c : AuthCall} (hc : ∀ t, c ≠ .refresh t) {first : AuthProg (ℕ × DeviceId)}
    (hfirst : first.Only LeavesTokens) :
    (first.bind fun x => (issuePair cfg x.1 x.2).bind fun tokens =>
      TxProg.commit.bind fun _ => .ret tokens).wp authStore.step (fun _ _ => True)
        (Leaves cfg g d c) (idle g d) := by
  have hfail : ∀ (e : AuthError) (w : AuthWorld), Unchanged g d w → Leaves cfg g d c (.error e) w := by
    rintro e w ⟨rfl, -, hg⟩
    exact ⟨.failed hg fun t _ h => absurd h (hc t), nofun⟩
  rw [wp_bind]
  refine wp_mono ?_ (hfirst.wp LeavesTokens.unchanged ⟨rfl, rfl, le_refl g⟩)
  intro o w hw
  cases o with
  | error e => exact hfail e w hw
  | ok x =>
    refine issuePair_wp (fun _ => hfail _ w hw) fun t ht d' hd' => ⟨?_, fun _ _ => rfl⟩
    exact .signedIn hc hw.2.2.1 (le_refl _) (hw.2.2.2.trans ht) (le_refl _)
      (hd'.trans (congrArg (· ++ _) hw.2.1))

theorem registerOrToken_wp (dev : Option DeviceId) :
    (registerOrToken cfg dev).wp authStore.step (fun _ _ => True)
      (Leaves cfg g d (.register dev)) (idle g d) := by
  rw [registerOrToken_split]
  exact signIn_wp (by rintro t ⟨⟩) (registerFirst_only dev)

theorem signInWithApple_wp (verified : Except AuthError VerifiedAppleIdentity)
    (dev : Option DeviceId) :
    (signInWithApple cfg verified dev).wp authStore.step (fun _ _ => True)
      (Leaves cfg g d (.apple verified dev)) (idle g d) := by
  rw [signInWithApple_split]
  exact signIn_wp (by rintro t ⟨⟩) (appleFirst_only verified dev)

theorem refresh_wp (tok : RefreshToken) :
    (refresh cfg tok).wp authStore.step (fun _ _ => True) (Leaves cfg g d (.refresh tok))
      (idle g d) := by
  cases hcfg : cfg.configured with
  | false =>
    have hraise : refresh cfg tok =
        .raise (.serviceUnavailable "auth issuer is not configured") := by
      simp [refresh, requireIssuer, hcfg]
    rw [hraise]
    exact ⟨.failed (le_refl g) fun _ _ _ h => absurd h (by simp [hcfg]), nofun⟩
  | true =>
    have hret : requireIssuer cfg = .ret () := by simp [requireIssuer, hcfg]
    simp only [refresh, hret, bind_eq, ret_bind, selectRefreshToken, TxProg.stmt, act_bind,
      wp_authStmt, AuthStmt.run, Store.view_nil]
    intro t₁ ht₁
    have hlook : (idle g d).work.tokens.find? (fun r => r.tokenHash = .sha256 tok) = d.token tok :=
      rfl
    rw [hlook]
    cases hrow : d.token tok with
    | none =>
      refine ⟨.failed ⟨le_refl _, ht₁⟩ fun t row ht _ h => ?_, nofun⟩
      obtain rfl := AuthCall.refresh.inj ht
      simp [hrow] at h
    | some row =>
      by_cases hused : row.usedAt = none
      · by_cases hrev : row.revokedAt = none
        · -- the time is read after the row
          simp only [hused, hrev, ne_eq, not_true_eq_false, if_false, wp_authStmt]
          intro t₂ ht₂
          show (rotateUnexpired cfg row t₂).wp _ _ _ (idle (g.1, t₂) d)
          by_cases hexp : row.expiresAt ≤ t₂
          · rw [rotateUnexpired, if_pos hexp]
            refine ⟨.failed ⟨le_refl _, le_trans ht₁ ht₂⟩ fun t row' ht _ h => ?_, nofun⟩
            obtain rfl := AuthCall.refresh.inj ht
            obtain rfl : row = row' := by simpa [hrow] using h
            exact ⟨hused, fun _ => hexp⟩
          · rw [rotateUnexpired, if_neg hexp]
            simp only [rotate, markUsed, TxProg.stmt, bind_eq, pure_eq, act_bind, ret_bind,
              wp_authStmt, AuthStmt.run]
            intro t₃ ht₃
            refine issuePair_wp (fun h => absurd h (by simp [hcfg])) fun t ht d' hd' =>
              ⟨?_, fun _ _ => rfl⟩
            have hmono : g.2 ≤ t := le_trans ht₁ (le_trans ht₂ (le_trans ht₃ ht))
            exact .rotated hcfg hrow ⟨hused, hrev⟩
              (lt_of_le_of_lt (le_trans ht₁ ht₂) (lt_of_not_ge hexp)) (le_refl _) (le_refl _) hmono
              (le_refl _) hd'
        · simp only [hused, hrev, ne_eq, not_true_eq_false, not_false_eq_true, if_false, if_true]
          refine ⟨.failed ⟨le_refl _, ht₁⟩ fun t row' ht _ h => ?_, nofun⟩
          obtain rfl := AuthCall.refresh.inj ht
          obtain rfl : row = row' := by simpa [hrow] using h
          exact ⟨hused, fun h => absurd h hrev⟩
      · simp only [hused, ne_eq, not_false_eq_true, if_true, TxProg.commit, act_bind, ret_bind,
          wp_authStmt, AuthStmt.run, Store.wp_commit]
        exact fun t₂ ht₂ => ⟨trivial,
          .reused ⟨le_refl _, le_trans ht₁ ht₂⟩ hrow hused rfl, nofun⟩

theorem method_wp (c : AuthCall) :
    (c.method cfg).wp authStore.step (fun _ _ => True) (Leaves cfg g d c) (idle g d) := by
  cases c with
  | register dev => exact registerOrToken_wp dev
  | apple verified dev => exact signInWithApple_wp verified dev
  | refresh tok => exact refresh_wp tok

/-- **What a request does to the tokens.** -/
theorem serve_wp (c : AuthCall) :
    (c.serve cfg).wp authStore.step (fun _ _ => True)
      (fun o w => Effect cfg g d c o w.gen w.db ∧ w = idle w.gen w.db) (idle g d) := by
  rw [AuthCall.serve, Store.wp_sessionScope]
  refine wp_mono (fun o w hw => ?_) (method_wp c)
  cases o with
  | error e => exact ⟨trivial, hw.1, rfl⟩
  | ok tokens =>
    have hwork : w.work = w.db := hw.2 tokens rfl
    refine ⟨trivial, ?_, rfl⟩
    show Effect cfg g d c _ w.gen w.work
    rw [hwork]
    exact hw.1

end Methods

/-! ## Sequences of requests -/

/-- Requests that are served one after another, with what each returned. -/
inductive Requests (cfg : AuthSettings) (g₀ : ℕ × ℕ) (d₀ : AuthDb) :
    List (AuthCall × Except AuthError IssuedTokens) → ℕ × ℕ → AuthDb → Prop
  | nil : Requests cfg g₀ d₀ [] g₀ d₀
  | snoc {cs : List (AuthCall × Except AuthError IssuedTokens)} {g : ℕ × ℕ} {d : AuthDb}
      {c : AuthCall} {o : Except AuthError IssuedTokens} {w : AuthWorld}
      (h : Requests cfg g₀ d₀ cs g d)
      (hr : Runs authStore.step (c.serve cfg) (idle g d) o w) :
      Requests cfg g₀ d₀ (cs ++ [(c, o)]) w.gen w.db

/-- The ids and the hashes of the tokens are distinct draws. -/
structure WellFormed (g : ℕ × ℕ) (d : AuthDb) : Prop where
  ids : (d.tokens.map AuthRefreshToken.id).Nodup
  hashes : (d.tokens.map AuthRefreshToken.tokenHash).Nodup
  bound : ∀ r ∈ d.tokens, r.id < g.1 ∧ ∃ t < g.1, r.tokenHash = .sha256 t

/-- The same row, later. -/
structure AuthRefreshToken.Later (r r' : AuthRefreshToken) : Prop where
  id : r'.id = r.id
  userId : r'.userId = r.userId
  deviceId : r'.deviceId = r.deviceId
  tokenHash : r'.tokenHash = r.tokenHash
  expiresAt : r'.expiresAt = r.expiresAt
  used : r.usedAt ≠ none → r'.usedAt ≠ none
  revoked : r.revokedAt ≠ none → r'.revokedAt ≠ none

theorem AuthRefreshToken.Later.rfl {r : AuthRefreshToken} : r.Later r :=
  ⟨by rfl, by rfl, by rfl, by rfl, by rfl, fun h => h, fun h => h⟩

theorem AuthRefreshToken.Later.trans {r r' r'' : AuthRefreshToken} (h : r.Later r')
    (h' : r'.Later r'') : r.Later r'' :=
  ⟨h'.id.trans h.id, h'.userId.trans h.userId, h'.deviceId.trans h.deviceId,
    h'.tokenHash.trans h.tokenHash, h'.expiresAt.trans h.expiresAt, fun hu => h'.used (h.used hu),
    fun hr => h'.revoked (h.revoked hr)⟩

theorem AuthRefreshToken.later_markUsed (id now : ℕ) (r : AuthRefreshToken) :
    r.Later (r.markUsed id now) := by
  unfold AuthRefreshToken.markUsed
  split
  · exact ⟨by rfl, by rfl, by rfl, by rfl, by rfl, fun _ => nofun, fun h => h⟩
  · exact .rfl

theorem AuthRefreshToken.later_revoke (ids : List ℕ) (now : ℕ) (r : AuthRefreshToken) :
    r.Later (r.revoke ids now) := by
  unfold AuthRefreshToken.revoke
  split
  · exact ⟨by rfl, by rfl, by rfl, by rfl, by rfl, fun h => h, fun _ => nofun⟩
  · exact .rfl

section Invariants

variable {cfg : AuthSettings} {g g' g₀ : ℕ × ℕ} {d d' d₀ : AuthDb} {c : AuthCall}
variable {o : Except AuthError IssuedTokens}

theorem WellFormed.eq_of_id (h : WellFormed g d) {r r' : AuthRefreshToken} (hr : r ∈ d.tokens)
    (hr' : r' ∈ d.tokens) (hid : r.id = r'.id) : r = r' :=
  List.inj_on_of_nodup_map h.ids hr hr' hid

theorem WellFormed.eq_of_hash (h : WellFormed g d) {r r' : AuthRefreshToken} (hr : r ∈ d.tokens)
    (hr' : r' ∈ d.tokens) (hh : r.tokenHash = r'.tokenHash) : r = r' :=
  List.inj_on_of_nodup_map h.hashes hr hr' hh

/-- The row of a token that is in the table. -/
theorem WellFormed.token_eq (h : WellFormed g d) {r : AuthRefreshToken} (hr : r ∈ d.tokens)
    {t : RefreshToken} (ht : r.tokenHash = .sha256 t) : d.token t = some r := by
  cases hf : d.token t with
  | none =>
    have := List.find?_eq_none.1 hf r hr
    simp [ht] at this
  | some r' =>
    obtain ⟨hr', ht'⟩ := AuthDb.token_some hf
    rw [h.eq_of_hash hr' hr (ht'.trans ht.symm)]

theorem Effect.gen_le (h : Effect cfg g d c o g' d') : g ≤ g' := by
  cases h with
  | failed hg => exact hg
  | signedIn _ hn hn' ht ht' => exact ⟨le_trans hn (le_trans (by omega) hn'), le_trans ht ht'⟩
  | rotated _ _ _ _ hn hn' ht ht' => exact ⟨le_trans hn (le_trans (by omega) hn'), le_trans ht ht'⟩
  | reused hg => exact hg

/-- The rows are the old ones, changed as `f` says, and new ones. -/
theorem Effect.tokens_eq (h : Effect cfg g d c o g' d') :
    ∃ f : AuthRefreshToken → AuthRefreshToken, (∀ r : AuthRefreshToken, r.Later (f r)) ∧
      ∃ new, d'.tokens = d.tokens.map f ++ new ∧ (new = [] ∨ ∃ u dev n t, g.1 ≤ n ∧ n + 2 ≤ g'.1 ∧
        o = .ok (issuedTokens cfg u dev n) ∧ new = [issuedRow cfg u dev n t]) := by
  cases h with
  | failed hg hc => exact ⟨id, fun _ => .rfl, [], by simp, .inl rfl⟩
  | @signedIn c g' d' u n t dev _ hn hn' _ _ htokens =>
    exact ⟨id, fun _ => .rfl, _, by simpa using htokens, .inr ⟨u, dev, n, t, hn, hn', rfl, rfl⟩⟩
  | @rotated tok row g' d' n t t' _ _ _ _ hn hn' _ _ htokens =>
    exact ⟨_, AuthRefreshToken.later_markUsed row.id t', _, htokens,
      .inr ⟨_, _, n, t, hn, hn', rfl, rfl⟩⟩
  | @reused tok row g' d' t hg hrow hused htokens =>
    exact ⟨_, AuthRefreshToken.later_revoke _ t, [], by simpa using htokens, .inl rfl⟩

theorem Effect.later (h : Effect cfg g d c o g' d') (r : AuthRefreshToken) (hr : r ∈ d.tokens) :
    ∃ r' ∈ d'.tokens, r.Later r' := by
  obtain ⟨f, hf, new, htokens, -⟩ := h.tokens_eq
  refine ⟨f r, ?_, hf r⟩
  rw [htokens]
  exact List.mem_append_left _ (List.mem_map_of_mem hr)

theorem Effect.wellFormed (h : Effect cfg g d c o g' d') (hd : WellFormed g d) :
    WellFormed g' d' := by
  obtain ⟨f, hf, new, htokens, hnew⟩ := h.tokens_eq
  have hold : ∀ r ∈ d.tokens.map f, r.id < g.1 ∧ ∃ t < g.1, r.tokenHash = .sha256 t := by
    intro r hr
    obtain ⟨r₀, hr₀, rfl⟩ := List.mem_map.1 hr
    rw [(hf r₀).id, (hf r₀).tokenHash]
    exact hd.bound r₀ hr₀
  have hids : (d.tokens.map f).map AuthRefreshToken.id = d.tokens.map AuthRefreshToken.id := by
    rw [List.map_map]
    exact List.map_congr_left fun r _ => (hf r).id
  have hhashes : (d.tokens.map f).map AuthRefreshToken.tokenHash =
      d.tokens.map AuthRefreshToken.tokenHash := by
    rw [List.map_map]
    exact List.map_congr_left fun r _ => (hf r).tokenHash
  obtain ⟨hg, -⟩ := h.gen_le
  rcases hnew with rfl | ⟨u, dev, n, t, hn, hn', -, rfl⟩
  · rw [List.append_nil] at htokens
    refine ⟨?_, ?_, fun r hr => ?_⟩
    · rw [htokens, hids]
      exact hd.ids
    · rw [htokens, hhashes]
      exact hd.hashes
    · obtain ⟨hid, t, ht, hh⟩ := hold r (htokens ▸ hr)
      exact ⟨by omega, t, by omega, hh⟩
  · refine ⟨?_, ?_, fun r hr => ?_⟩
    · rw [htokens, List.map_append, hids]
      refine List.nodup_append.2 ⟨hd.ids, List.nodup_singleton _, fun a ha b hb => ?_⟩
      obtain ⟨r, hr, rfl⟩ := List.mem_map.1 ha
      have hb : b = n := List.mem_singleton.1 hb
      have := (hd.bound r hr).1
      omega
    · rw [htokens, List.map_append, hhashes]
      refine List.nodup_append.2 ⟨hd.hashes, List.nodup_singleton _, fun a ha b hb => ?_⟩
      obtain ⟨r, hr, rfl⟩ := List.mem_map.1 ha
      have hb : b = .sha256 (n + 1) := List.mem_singleton.1 hb
      obtain ⟨-, t', ht', hh⟩ := hd.bound r hr
      rw [hh, hb]
      intro heq
      have heq : t' = n + 1 := TokenHash.sha256.inj heq
      omega
    · rw [htokens] at hr
      obtain hr | hr := List.mem_append.1 hr
      · obtain ⟨hid, t', ht', hh⟩ := hold r hr
        exact ⟨by omega, t', by omega, hh⟩
      · obtain rfl := List.mem_singleton.1 hr
        exact ⟨by show n < g'.1; omega, n + 1, by omega, rfl⟩

/-- A row is touched by a request that presents its token, or that presents a used token of the
same user and device. -/
theorem Effect.frame (h : Effect cfg g d c o g' d') (hd : WellFormed g d) {r : AuthRefreshToken}
    (hr : r ∈ d.tokens) : r ∈ d'.tokens ∨ ∃ tok, c = .refresh tok ∧ (r.tokenHash = .sha256 tok ∨
      ∃ row, d.token tok = some row ∧ row.usedAt ≠ none ∧ row.userId = r.userId ∧
        row.deviceId = r.deviceId) := by
  cases h with
  | failed hg hc => exact .inl hr
  | signedIn _ _ _ _ _ htokens =>
    rw [htokens]
    exact .inl (List.mem_append_left _ hr)
  | @rotated tok row g' d' n t t' _ hrow _ _ _ _ _ _ htokens =>
    by_cases hid : r.id = row.id
    · obtain ⟨hmem, hhash⟩ := AuthDb.token_some hrow
      rw [hd.eq_of_id hr hmem hid]
      exact .inr ⟨tok, rfl, .inl hhash⟩
    · refine .inl ?_
      rw [htokens]
      refine List.mem_append_left _ (List.mem_map.2 ⟨r, hr, ?_⟩)
      rw [AuthRefreshToken.markUsed, if_neg hid]
  | @reused tok row g' d' t hg hrow hused htokens =>
    by_cases hid : r.id ∈ d.chain row.userId row.deviceId
    · obtain ⟨r', hr', hid'⟩ := List.mem_map.1 hid
      obtain ⟨hmem, hpair⟩ := List.mem_filter.1 hr'
      obtain rfl : r' = r := hd.eq_of_id hmem hr hid'
      have hpair : r'.userId = row.userId ∧ r'.deviceId = row.deviceId ∧ r'.revokedAt = none := by
        simpa using hpair
      exact .inr ⟨tok, rfl, .inr ⟨row, hrow, hused, hpair.1.symm, hpair.2.1.symm⟩⟩
    · refine .inl ?_
      rw [htokens]
      refine List.mem_map.2 ⟨r, hr, ?_⟩
      rw [AuthRefreshToken.revoke, if_neg hid]

/-- Presenting a used token revokes every token of its user and device. -/
theorem Effect.chain_revoked {tok : RefreshToken} (h : Effect cfg g d (.refresh tok) o g' d')
    (hcfg : cfg.configured = true) {row : AuthRefreshToken} (hrow : d.token tok = some row)
    (hused : row.usedAt ≠ none) {r : AuthRefreshToken} (hr : r ∈ d.tokens)
    (hu : r.userId = row.userId) (hdev : r.deviceId = row.deviceId) :
    (∃ e, o = .error e) ∧ ∃ r' ∈ d'.tokens, r'.tokenHash = r.tokenHash ∧ r'.revokedAt ≠ none := by
  cases h with
  | failed hg hc => exact absurd (hc tok row rfl hcfg hrow).1 hused
  | signedIn hc => exact absurd rfl (hc tok)
  | rotated _ hrow' hactive =>
    obtain rfl := Option.some.inj (hrow.symm.trans hrow')
    exact absurd hactive.1 hused
  | @reused tok row' g' d' t hg hrow' hused' htokens =>
    obtain rfl := Option.some.inj (hrow.symm.trans hrow')
    refine ⟨⟨_, rfl⟩, r.revoke (d.chain row.userId row.deviceId) t, ?_,
      (AuthRefreshToken.later_revoke _ t r).tokenHash, ?_⟩
    · rw [htokens]
      exact List.mem_map_of_mem hr
    · by_cases hrev : r.revokedAt = none
      · have hmem : r.id ∈ d.chain row.userId row.deviceId :=
          List.mem_map_of_mem (List.mem_filter.2 ⟨hr, by simp [hu, hdev, hrev]⟩)
        rw [AuthRefreshToken.revoke, if_pos hmem]
        exact nofun
      · exact (AuthRefreshToken.later_revoke _ t r).revoked hrev

/-- What a refresh that succeeds has found. -/
theorem Effect.refreshed {tok : RefreshToken} {tokens : IssuedTokens}
    (h : Effect cfg g d (.refresh tok) (.ok tokens) g' d') :
    cfg.configured = true ∧ ∃ row, d.token tok = some row ∧ row.Active ∧ g.2 < row.expiresAt := by
  cases h with
  | signedIn hc => exact absurd rfl (hc tok)
  | @rotated _ row _ _ _ _ _ hcfg hrow hactive hexp => exact ⟨hcfg, row, hrow, hactive, hexp⟩

/-- The row of a token that is returned is new. -/
theorem Effect.returned {tokens : IssuedTokens} (h : Effect cfg g d c (.ok tokens) g' d') :
    ∃ u dev n t, g.1 ≤ n ∧ g.2 ≤ t ∧ tokens = issuedTokens cfg u dev n ∧
      issuedRow cfg u dev n t ∈ d'.tokens := by
  cases h with
  | @signedIn _ _ _ u n t dev _ hn _ ht _ htokens =>
    exact ⟨u, dev, n, t, hn, ht, rfl, by rw [htokens]; simp⟩
  | @rotated _ row _ _ n t _ _ _ _ _ hn _ ht _ htokens =>
    exact ⟨row.userId, row.deviceId, n, t, hn, ht, rfl, by rw [htokens]; simp⟩

/-- An active token is refreshed, unless it has expired. -/
theorem Effect.of_active {tok : RefreshToken} (h : Effect cfg g d (.refresh tok) o g' d')
    (hcfg : cfg.configured = true) {row : AuthRefreshToken} (hrow : d.token tok = some row)
    (hactive : row.Active) : (∃ tokens, o = .ok tokens) ∨ row.expiresAt ≤ g'.2 := by
  cases h with
  | failed hg hc => exact .inr ((hc tok row rfl hcfg hrow).2 hactive.2)
  | signedIn hc => exact absurd rfl (hc tok)
  | rotated => exact .inl ⟨_, rfl⟩
  | reused _ hrow' hused =>
    obtain rfl := Option.some.inj (hrow.symm.trans hrow')
    exact absurd hactive.1 hused

theorem Requests.effect {w : AuthWorld} (hr : Runs authStore.step (c.serve cfg) (idle g d) o w) :
    Effect cfg g d c o w.gen w.db := (hr.of_wp (serve_wp c)).1

variable {cs : List (AuthCall × Except AuthError IssuedTokens)}

theorem Requests.wellFormed (h : Requests cfg g₀ d₀ cs g d) (h₀ : WellFormed g₀ d₀) :
    WellFormed g d := by
  induction h with
  | nil => exact h₀
  | snoc _ hr ih => exact (Requests.effect hr).wellFormed ih

theorem Requests.later (h : Requests cfg g₀ d₀ cs g d) (r : AuthRefreshToken)
    (hr : r ∈ d₀.tokens) : ∃ r' ∈ d.tokens, r.Later r' := by
  induction h with
  | nil => exact ⟨r, hr, .rfl⟩
  | snoc _ hrun ih =>
    obtain ⟨r₁, hr₁, hl₁⟩ := ih
    obtain ⟨r₂, hr₂, hl₂⟩ := (Requests.effect hrun).later r₁ hr₁
    exact ⟨r₂, hr₂, hl₁.trans hl₂⟩

/-- Every row is the row of a token that a request has returned. -/
theorem Requests.issued (h : Requests cfg g₀ .empty cs g d) (r : AuthRefreshToken)
    (hr : r ∈ d.tokens) : ∃ c tokens, (c, .ok tokens) ∈ cs ∧
      r.tokenHash = .sha256 tokens.refreshToken ∧ r.userId = tokens.userId ∧
        r.deviceId = tokens.deviceId := by
  induction h generalizing r with
  | nil => exact absurd hr (by simp [AuthDb.empty])
  | @snoc cs g d c o w _ hrun ih =>
    obtain ⟨f, hf, new, htokens, hnew⟩ := (Requests.effect hrun).tokens_eq
    rw [htokens] at hr
    obtain hr | hr := List.mem_append.1 hr
    · obtain ⟨r₀, hr₀, rfl⟩ := List.mem_map.1 hr
      obtain ⟨c, tokens, hmem, hh, hu, hdev⟩ := ih r₀ hr₀
      rw [(hf r₀).tokenHash, (hf r₀).userId, (hf r₀).deviceId]
      exact ⟨c, tokens, List.mem_append_left _ hmem, hh, hu, hdev⟩
    · rcases hnew with rfl | ⟨u, dev, n, t, -, -, rfl, rfl⟩
      · cases hr
      · obtain rfl := List.mem_singleton.1 hr
        exact ⟨c, issuedTokens cfg u dev n, by simp, rfl, rfl, rfl⟩

end Invariants

theorem WellFormed.empty : WellFormed (0, 0) .empty := ⟨.nil, .nil, nofun⟩

/-- **Reuse detection.** After any sequence of requests:
a refresh that succeeds presents a token that has been issued, and that is not used, revoked or
expired; when a used token is presented, no token that its user has been issued on its device so
far is ever refreshed again; a request leaves the row of every token as it is, but for the token
that it presents and for the tokens of the user and device of a used token that it presents; a
token that is issued is active; and an active token that is presented is refreshed, or has
expired. -/
theorem reuse_detection {cfg : AuthSettings} {cs : List (AuthCall × Except AuthError IssuedTokens)}
    {g : ℕ × ℕ} {d : AuthDb} (h : Requests cfg (0, 0) .empty cs g d) :
    (∀ tok tokens w,
      Runs authStore.step ((AuthCall.refresh tok).serve cfg) (idle g d) (.ok tokens) w →
      ∃ row, d.token tok = some row ∧ row.usedAt = none ∧ row.revokedAt = none ∧
        g.2 < row.expiresAt ∧ ∃ c issued, (c, .ok issued) ∈ cs ∧ issued.refreshToken = tok) ∧
    (∀ tok row, d.token tok = some row → row.usedAt ≠ none →
      ∀ o w, Runs authStore.step ((AuthCall.refresh tok).serve cfg) (idle g d) o w →
      (∃ e, o = .error e) ∧
      ∀ r ∈ d.tokens, r.userId = row.userId → r.deviceId = row.deviceId →
        ∀ cs' g' d', Requests cfg w.gen w.db cs' g' d' →
        ∀ tok', r.tokenHash = .sha256 tok' →
        ∀ o' w', Runs authStore.step ((AuthCall.refresh tok').serve cfg) (idle g' d') o' w' →
          ∃ e, o' = .error e) ∧
    (∀ c o w, Runs authStore.step (AuthCall.serve cfg c) (idle g d) o w →
      ∀ r ∈ d.tokens, r ∈ w.db.tokens ∨ ∃ tok, c = .refresh tok ∧ (r.tokenHash = .sha256 tok ∨
        ∃ row, d.token tok = some row ∧ row.usedAt ≠ none ∧ row.userId = r.userId ∧
          row.deviceId = r.deviceId)) ∧
    (∀ c tokens w, Runs authStore.step (AuthCall.serve cfg c) (idle g d) (.ok tokens) w →
      ∃ row, w.db.token tokens.refreshToken = some row ∧ row ∉ d.tokens ∧ row.Active ∧
        row.userId = tokens.userId ∧ row.deviceId = tokens.deviceId ∧
        g.2 + cfg.refreshTtl ≤ row.expiresAt) ∧
    (∀ tok row, d.token tok = some row → row.Active → cfg.configured = true →
      ∀ o w, Runs authStore.step ((AuthCall.refresh tok).serve cfg) (idle g d) o w →
        (∃ tokens, o = .ok tokens) ∨ row.expiresAt ≤ w.gen.2) := by
  have hd : WellFormed g d := h.wellFormed .empty
  refine ⟨fun tok tokens w hr => ?_, fun tok row hrow hused o w hr => ?_, fun c o w hr r hmem => ?_,
    fun c tokens w hr => ?_, fun tok row hrow hactive hcfg o w hr => ?_⟩
  · obtain ⟨-, row, hrow, hactive, hexp⟩ := (Requests.effect hr).refreshed
    obtain ⟨hmem, hhash⟩ := AuthDb.token_some hrow
    obtain ⟨c, issued, hissued, hhash', -⟩ := h.issued row hmem
    have htok : issued.refreshToken = tok := TokenHash.sha256.inj (hhash'.symm.trans hhash)
    exact ⟨row, hrow, hactive.1, hactive.2, hexp, c, issued, hissued, htok⟩
  · have heff := Requests.effect hr
    have hd' : WellFormed w.gen w.db := heff.wellFormed hd
    have hfailed : ∃ e, o = .error e := by
      cases o with
      | error e => exact ⟨e, rfl⟩
      | ok tokens =>
        obtain ⟨-, row', hrow', hactive, -⟩ := heff.refreshed
        obtain rfl := Option.some.inj (hrow.symm.trans hrow')
        exact absurd hactive.1 hused
    refine ⟨hfailed, fun r hmem hu hdev cs' g' d' hcs' tok' htok' o' w' hr' => ?_⟩
    cases o' with
    | error e => exact ⟨e, rfl⟩
    | ok tokens =>
      -- the row of `tok'` is revoked from the presentation on
      obtain ⟨hcfg, row', hrow', hactive, -⟩ := (Requests.effect hr').refreshed
      obtain ⟨-, r₁, hr₁, hhash₁, hrev₁⟩ := heff.chain_revoked hcfg hrow hused hmem hu hdev
      obtain ⟨r₂, hr₂, hlater⟩ := hcs'.later r₁ hr₁
      have hhash₂ : r₂.tokenHash = .sha256 tok' := by rw [hlater.tokenHash, hhash₁, htok']
      have hrow₂ : d'.token tok' = some r₂ := (hcs'.wellFormed hd').token_eq hr₂ hhash₂
      obtain rfl := Option.some.inj (hrow'.symm.trans hrow₂)
      exact absurd hactive.2 (hlater.revoked hrev₁)
  · exact (Requests.effect hr).frame hd hmem
  · have heff := Requests.effect hr
    obtain ⟨u, dev, n, t, hn, ht, rfl, hmem⟩ := heff.returned
    refine ⟨issuedRow cfg u dev n t, (heff.wellFormed hd).token_eq hmem rfl, fun hold => ?_,
      ⟨rfl, rfl⟩, rfl, rfl, Nat.add_le_add_right ht _⟩
    have : n < g.1 := (hd.bound _ hold).1
    omega
  · exact (Requests.effect hr).of_active hcfg hrow hactive

/-- Statements that are answered at once, a unit of time after each other. -/
def authHandler : Store.Handler authStore Unit where
  answer _ s g _ d := match s.run (g.2 + 1) g.1 d with
    | (r, ops, n) => (r, ops, (n, g.2 + 1), (), ())
  ok _ s g _ d := ⟨g.2 + 1, by omega, rfl, rfl⟩
  compat l l' := (l.flatMap AuthOp.locks).all fun k => k ∉ l'.flatMap AuthOp.locks
  compat_ok h k hk := by simpa using List.all_eq_true.1 h k hk

/-- The requests of a list, one after the other. -/
def serveAll (cfg : AuthSettings) : List AuthCall → AuthWorld →
    List (AuthCall × Except AuthError IssuedTokens) × AuthWorld
  | [], w => ([], w)
  | c :: cs, w =>
    match (c.serve cfg).eval authHandler.act (w, ()) with
    | (o, w', _) => match serveAll cfg cs (idle w'.gen w'.db) with
      | (os, w'') => ((c, o) :: os, w'')

theorem serveAll_requests {cfg : AuthSettings} (cs : List AuthCall) {g₀ g : ℕ × ℕ} {d₀ d : AuthDb}
    {before : List (AuthCall × Except AuthError IssuedTokens)}
    (h : Requests cfg g₀ d₀ before g d) :
    Requests cfg g₀ d₀ (before ++ (serveAll cfg cs (idle g d)).1)
      (serveAll cfg cs (idle g d)).2.gen (serveAll cfg cs (idle g d)).2.db := by
  induction cs generalizing before g d with
  | nil =>
    rw [serveAll, List.append_nil]
    exact h
  | cons c cs ih =>
    have hr := Store.eval_runs_step authHandler (c.serve cfg) (idle g d, ())
    have := ih (h.snoc hr)
    simpa [serveAll, List.append_assoc] using this

/-- A device that registers, whose token is refreshed and then presented once more. -/
def stolen : List AuthCall :=
  [.register (some (.given "phone")), .refresh 2]

/-- An issuer with a key. -/
def issuer : AuthSettings := ⟨true, 3600, 2592000⟩

/-- The token that the thief has presented is of no use, nor is then the one that the owner got for
it. -/
theorem reuse_detection_stolen :
    ∃ cs g d row owned, Requests issuer (0, 0) .empty cs g d ∧ d.token 2 = some row ∧
      row.usedAt ≠ none ∧ d.token 4 = some owned ∧ owned.Active ∧
      ∀ o w, Runs authStore.step ((AuthCall.refresh 2).serve issuer) (idle g d) o w →
        (∃ e, o = .error e) ∧
        ∀ o' w', Runs authStore.step ((AuthCall.refresh 4).serve issuer) (idle w.gen w.db) o' w' →
          ∃ e, o' = .error e := by
  have h : Requests issuer (0, 0) .empty _ _ _ := serveAll_requests stolen .nil
  have hrows : ∃ row owned, (serveAll issuer stolen (idle (0, 0) .empty)).2.db.token 2 = some row ∧
      row.usedAt ≠ none ∧ (serveAll issuer stolen (idle (0, 0) .empty)).2.db.token 4 = some owned ∧
      owned.Active ∧ owned.userId = row.userId ∧ owned.deviceId = row.deviceId :=
    ⟨_, _, rfl, by decide, rfl, ⟨rfl, rfl⟩, rfl, rfl⟩
  obtain ⟨row, owned, hrow, hused, howned, hactive, huser, hdevice⟩ := hrows
  refine ⟨_, _, _, row, owned, h, hrow, hused, howned, hactive, fun o w hr => ?_⟩
  obtain ⟨hfailed, hchain⟩ := (reuse_detection h).2.1 2 row hrow hused o w hr
  obtain ⟨hmem, hhash⟩ := AuthDb.token_some howned
  exact ⟨hfailed, hchain owned hmem huser hdevice _ _ _ .nil 4 hhash⟩

end ChatBackend.Auth
