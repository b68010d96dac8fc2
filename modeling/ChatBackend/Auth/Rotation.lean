import ChatBackend.Foundations.Guarantee
import ChatBackend.Auth.Sequential

/-!
# The rotation of refresh tokens under interleaving

`refresh` reads the row of the token, checks it, and marks it used by a later statement, which does
not look at the row again. Two refreshes of one token can both pass the check
(`refresh_single_use_fails`). When the row is still unused at the time it is marked, a token is
exchanged at most once, and of the tokens that come from each other by rotation at most one is
active (`refresh_single_use`).
-/

namespace ChatBackend.Auth

open Prog Store

/-! ## What a log does to the tokens -/

/-- The rows that a log inserts. -/
def inserted (log : List AuthOp) : List AuthRefreshToken :=
  log.filterMap fun o => match o with
    | .insertToken row => some row
    | _ => none

@[simp] theorem inserted_append (l l' : List AuthOp) :
    inserted (l ++ l') = inserted l ++ inserted l' := List.filterMap_append

theorem mem_inserted {log : List AuthOp} {row : AuthRefreshToken} :
    row ∈ inserted log ↔ .insertToken row ∈ log := by
  rw [inserted, List.mem_filterMap]
  constructor
  · rintro ⟨o, ho, h⟩
    cases o <;> simp at h
    exact h ▸ ho
  · exact fun h => ⟨_, h, rfl⟩

/-- How the rows of a table and the new rows stand in the table after the writes `log`. -/
structure Moves (log : List AuthOp) (f : AuthRefreshToken → AuthRefreshToken)
    (new : List AuthRefreshToken) : Prop where
  later : ∀ r : AuthRefreshToken, r.Later (f r)
  ids : new.map AuthRefreshToken.id = (inserted log).map AuthRefreshToken.id
  hashes : new.map AuthRefreshToken.tokenHash = (inserted log).map AuthRefreshToken.tokenHash
  frame : ∀ r : AuthRefreshToken, .token r.id ∉ log.flatMap AuthOp.locks → f r = r
  marked : ∀ r : AuthRefreshToken, ∀ t, .markUsed r.id t ∈ log → (f r).usedAt ≠ none

/-- One write. -/
theorem AuthOp.moves (o : AuthOp) (d : AuthDb) :
    ∃ f new, Moves [o] f new ∧ (o.apply d).tokens = d.tokens.map f ++ new := by
  cases o with
  | insertToken row =>
    exact ⟨id, [row], ⟨fun _ => .rfl, rfl, rfl, fun _ _ => rfl, by simp⟩, by simp [AuthOp.apply]⟩
  | markUsed n t =>
    refine ⟨_, [], ⟨AuthRefreshToken.later_markUsed n t, rfl, rfl, fun r hr => ?_, fun r t' h => ?_⟩,
      by simp [AuthOp.apply]⟩
    · have hne : r.id ≠ n := by simpa [AuthOp.locks] using hr
      rw [AuthRefreshToken.markUsed, if_neg hne]
    · obtain ⟨rfl, rfl⟩ : r.id = n ∧ t' = t := by simpa using h
      rw [AuthRefreshToken.markUsed, if_pos rfl]
      exact fun h => by cases h
  | revoke ids t =>
    refine ⟨_, [], ⟨AuthRefreshToken.later_revoke ids t, rfl, rfl, fun r hr => ?_, by simp⟩,
      by simp [AuthOp.apply]⟩
    have hne : r.id ∉ ids := by simpa [AuthOp.locks] using hr
    rw [AuthRefreshToken.revoke, if_neg hne]
  | insertUser n =>
    exact ⟨id, [], ⟨fun _ => .rfl, rfl, rfl, fun _ _ => rfl, by simp⟩, by simp [AuthOp.apply]⟩
  | insertDevice row =>
    exact ⟨id, [], ⟨fun _ => .rfl, rfl, rfl, fun _ _ => rfl, by simp⟩, by simp [AuthOp.apply]⟩
  | touchDevice dev =>
    exact ⟨id, [], ⟨fun _ => .rfl, rfl, rfl, fun _ _ => rfl, by simp⟩, by simp [AuthOp.apply]⟩
  | setDeviceUser dev u =>
    exact ⟨id, [], ⟨fun _ => .rfl, rfl, rfl, fun _ _ => rfl, by simp⟩, by simp [AuthOp.apply]⟩
  | insertIdentity row =>
    exact ⟨id, [], ⟨fun _ => .rfl, rfl, rfl, fun _ _ => rfl, by simp⟩, by simp [AuthOp.apply]⟩

/-- A log, one write after the other. -/
theorem view_moves (log : List AuthOp) (d : AuthDb) :
    ∃ f new, Moves log f new ∧ (authStore.view log d).tokens = d.tokens.map f ++ new := by
  induction log generalizing d with
  | nil => exact ⟨id, [], ⟨fun _ => .rfl, rfl, rfl, fun _ _ => rfl, by simp⟩, by simp⟩
  | cons o log ih =>
    obtain ⟨f₀, new₀, h₀, ht₀⟩ := o.moves d
    obtain ⟨f₁, new₁, h₁, ht₁⟩ := ih (o.apply d)
    have hins : inserted (o :: log) = inserted [o] ++ inserted log := inserted_append [o] log
    refine ⟨f₁ ∘ f₀, new₀.map f₁ ++ new₁, ⟨fun r => (h₀.later r).trans (h₁.later _), ?_, ?_,
      fun r hr => ?_, fun r t ht => ?_⟩, ?_⟩
    · have : (new₀.map f₁).map AuthRefreshToken.id = new₀.map AuthRefreshToken.id := by
        rw [List.map_map]
        exact List.map_congr_left fun r _ => (h₁.later r).id
      rw [List.map_append, this, h₀.ids, h₁.ids, hins, List.map_append]
    · have : (new₀.map f₁).map AuthRefreshToken.tokenHash =
          new₀.map AuthRefreshToken.tokenHash := by
        rw [List.map_map]
        exact List.map_congr_left fun r _ => (h₁.later r).tokenHash
      rw [List.map_append, this, h₀.hashes, h₁.hashes, hins, List.map_append]
    · rw [List.flatMap_cons, List.mem_append, not_or] at hr
      have hfix : f₀ r = r := h₀.frame r (by simpa using hr.1)
      show f₁ (f₀ r) = r
      rw [hfix]
      exact h₁.frame r hr.2
    · obtain ht | ht := List.mem_cons.1 ht
      · exact (h₁.later _).used (h₀.marked r t (by simp [ht]))
      · refine h₁.marked _ t ?_
        rw [(h₀.later r).id]
        exact ht
    · show (authStore.view log (o.apply d)).tokens = _
      rw [ht₁, ht₀, List.map_append, List.map_map, List.append_assoc]

section View

variable {log : List AuthOp} {d : AuthDb} {r : AuthRefreshToken}

theorem ids_view : (authStore.view log d).tokens.map AuthRefreshToken.id =
    d.tokens.map AuthRefreshToken.id ++ (inserted log).map AuthRefreshToken.id := by
  obtain ⟨f, new, h, ht⟩ := view_moves log d
  have : (d.tokens.map f).map AuthRefreshToken.id = d.tokens.map AuthRefreshToken.id := by
    rw [List.map_map]
    exact List.map_congr_left fun r _ => (h.later r).id
  rw [ht, List.map_append, this, h.ids]

theorem hashes_view : (authStore.view log d).tokens.map AuthRefreshToken.tokenHash =
    d.tokens.map AuthRefreshToken.tokenHash ++
      (inserted log).map AuthRefreshToken.tokenHash := by
  obtain ⟨f, new, h, ht⟩ := view_moves log d
  have : (d.tokens.map f).map AuthRefreshToken.tokenHash =
      d.tokens.map AuthRefreshToken.tokenHash := by
    rw [List.map_map]
    exact List.map_congr_left fun r _ => (h.later r).tokenHash
  rw [ht, List.map_append, this, h.hashes]

/-- A row that is there stays, and a row that is marked is used from then on. -/
theorem later_view (hr : r ∈ d.tokens) : ∃ r' ∈ (authStore.view log d).tokens, r.Later r' ∧
    ((∃ t, .markUsed r.id t ∈ log) → r'.usedAt ≠ none) := by
  obtain ⟨f, new, h, ht⟩ := view_moves log d
  refine ⟨f r, ?_, h.later r, fun ⟨t, hm⟩ => h.marked r t hm⟩
  rw [ht]
  exact List.mem_append_left _ (List.mem_map_of_mem hr)

/-- A row that is not written stays as it is. -/
theorem frame_view (hr : r ∈ d.tokens) (hl : .token r.id ∉ log.flatMap AuthOp.locks) :
    r ∈ (authStore.view log d).tokens := by
  obtain ⟨f, new, h, ht⟩ := view_moves log d
  rw [ht]
  exact List.mem_append_left _ (List.mem_map.2 ⟨r, hr, h.frame r hl⟩)

end View

theorem WellFormed.of_lists {g : ℕ × ℕ} {d : AuthDb}
    (ids : (d.tokens.map AuthRefreshToken.id).Nodup)
    (hashes : (d.tokens.map AuthRefreshToken.tokenHash).Nodup)
    (hid : ∀ n ∈ d.tokens.map AuthRefreshToken.id, n < g.1)
    (hhash : ∀ h ∈ d.tokens.map AuthRefreshToken.tokenHash, ∃ t < g.1, h = .sha256 t) :
    WellFormed g d :=
  ⟨ids, hashes, fun _ hr => ⟨hid _ (List.mem_map_of_mem hr), hhash _ (List.mem_map_of_mem hr)⟩⟩

theorem WellFormed.mono {g g' : ℕ × ℕ} {d : AuthDb} (hg : g ≤ g') (h : WellFormed g d) :
    WellFormed g' d :=
  ⟨h.ids, h.hashes, fun r hr => ⟨lt_of_lt_of_le (h.bound r hr).1 hg.1,
    (h.bound r hr).2.imp fun _ ht => ⟨lt_of_lt_of_le ht.1 hg.1, ht.2⟩⟩⟩

/-! ## The protocol -/

/-- What a session may commit: rows that it marks are unused, and it inserts at most one row. -/
structure Rotates (g : ℕ × ℕ) (d : AuthDb) (log : List AuthOp) : Prop where
  wellFormed : WellFormed g (authStore.view log d)
  marks : ∀ id t, .markUsed id t ∈ log → ∃ r ∈ d.tokens, r.id = id ∧ r.usedAt = none
  inserts : ∀ row row', .insertToken row ∈ log → .insertToken row' ∈ log → row = row'

/-- The row that is marked has not been used since it was read. -/
def StillUnused (d : AuthDb) : TxAct AuthStmt → Prop
  | .stmt (.markUsed id) => ∀ r ∈ d.tokens, r.id = id → r.usedAt = none
  | _ => True

section Statements

variable {ι α : Type} {pr : Protocol authStore ι} {i : ι}
variable {Q : Except AuthError α → Own AuthDb AuthOp (ℕ × ℕ) Unit → Prop}

/-- The rule for a statement. The passing of time is a step of the others. -/
theorem rg_authStmt {s : AuthStmt} {k : s.Resp → AuthProg α} {l : Own AuthDb AuthOp (ℕ × ℕ) Unit}
    (h : ∀ l₁, pr.Relies i l l₁ → pr.inv l₁.gen l₁.db → pr.test i (l₁.view authStore) (.stmt s) →
      pr.rg i Q (k (s.run l₁.gen.2 l₁.gen.1 (l₁.view authStore)).1)
        ⟨((s.run l₁.gen.2 l₁.gen.1 (l₁.view authStore)).2.2, l₁.gen.2), l₁.db,
          l₁.log ++ (s.run l₁.gen.2 l₁.gen.1 (l₁.view authStore)).2.1, (), l₁.done⟩) :
    pr.rg i Q (.act (.stmt s) k) l := by
  refine Protocol.rg_clock (fun s g m d r ops g' m' hx => ?_) h
  obtain ⟨t, ht, rfl, hrun⟩ := hx
  exact ⟨ht, hrun⟩

/-- The rule for a statement that draws nothing. -/
theorem rg_write {s : AuthStmt} {k : s.Resp → AuthProg α} {l : Own AuthDb AuthOp (ℕ × ℕ) Unit}
    (hs : ∀ t g d, (s.run t g d).2.2 = g)
    (h : ∀ l₁, pr.Relies i l l₁ → pr.inv l₁.gen l₁.db → pr.test i (l₁.view authStore) (.stmt s) →
      pr.rg i Q (k (s.run l₁.gen.2 l₁.gen.1 (l₁.view authStore)).1)
        (l₁.write (s.run l₁.gen.2 l₁.gen.1 (l₁.view authStore)).2.1)) :
    pr.rg i Q (.act (.stmt s) k) l := by
  refine rg_authStmt fun l₁ he hi ht => ?_
  rw [hs]
  exact h l₁ he hi ht

/-- The rule for a statement that reads. -/
theorem rg_read {s : AuthStmt} {k : s.Resp → AuthProg α} {l : Own AuthDb AuthOp (ℕ × ℕ) Unit}
    (hs : ∀ t g d, (s.run t g d).2 = ([], g))
    (h : ∀ l₁, pr.Relies i l l₁ → pr.inv l₁.gen l₁.db → pr.test i (l₁.view authStore) (.stmt s) →
      pr.rg i Q (k (s.run l₁.gen.2 l₁.gen.1 (l₁.view authStore)).1) l₁) :
    pr.rg i Q (.act (.stmt s) k) l := by
  refine rg_write (fun t g d => by rw [hs]) fun l₁ he hi ht => ?_
  rw [hs, Own.write_nil]
  exact h l₁ he hi ht

end Statements

section Rotation

variable {ι : Type}

/-- The protocol of the rotation. -/
def rotation (ι : Type) : Protocol authStore ι where
  inv := WellFormed
  may _ g d log := Rotates g d log
  test _ := StillUnused
  inv_gen hg h := h.mono hg
  inv_commit _ h := h.wellFormed

abbrev AuthOwn : Type := Own AuthDb AuthOp (ℕ × ℕ) Unit

/-- A row that the open transaction inserts. -/
structure NewRow (l : AuthOwn) (row : AuthRefreshToken) : Prop where
  id_lt : row.id < l.gen.1
  id_new : row.id ∉ l.db.tokens.map AuthRefreshToken.id
  hash_lt : ∃ t < l.gen.1, row.tokenHash = .sha256 t
  hash_new : row.tokenHash ∉ l.db.tokens.map AuthRefreshToken.tokenHash

/-- The open transaction so far. -/
structure Open (l : AuthOwn) : Prop where
  marks : ∀ id t, .markUsed id t ∈ l.log → ∃ r ∈ l.db.tokens, r.id = id ∧ r.usedAt = none
  inserts : inserted l.log = [] ∨ ∃ row, inserted l.log = [row] ∧ NewRow l row

variable {i : ι} {l l' : AuthOwn}

/-- What the open transaction has locked, the others leave as it is. -/
theorem Open.stable : Protocol.Stable (rotation ι) i Open := by
  intro l l' hinv h hr
  cases hr with
  | gen hg =>
    refine ⟨h.marks, h.inserts.imp_right fun ⟨row, hrow, hn⟩ => ⟨row, hrow, ?_, hn.id_new, ?_,
      hn.hash_new⟩⟩
    · exact lt_of_lt_of_le hn.id_lt hg.1
    · exact hn.hash_lt.imp fun _ ht => ⟨lt_of_lt_of_le ht.1 hg.1, ht.2⟩
  | @commit j log hj hc hm =>
    constructor
    · intro id t hmem
      obtain ⟨r, hr, rfl, hu⟩ := h.marks id t hmem
      have hlock : AuthLock.token r.id ∈ l.log.flatMap AuthOp.locks :=
        List.mem_flatMap.2 ⟨_, hmem, by simp [AuthOp.locks]⟩
      exact ⟨r, frame_view hr (hc _ hlock), rfl, hu⟩
    · refine h.inserts.imp_right fun ⟨row, hrow, hn⟩ => ⟨row, hrow, hn.id_lt, ?_, hn.hash_lt, ?_⟩
      -- another log with the same id or hash would have to wait
      · have hins : AuthOp.insertToken row ∈ l.log := mem_inserted.1 (by simp [hrow])
        have hlock : AuthLock.token row.id ∈ l.log.flatMap AuthOp.locks :=
          List.mem_flatMap.2 ⟨_, hins, by simp [AuthOp.locks]⟩
        rw [ids_view, List.mem_append, not_or]
        refine ⟨hn.id_new, fun hmem => hc _ hlock ?_⟩
        obtain ⟨row', hrow', hid⟩ := List.mem_map.1 hmem
        exact List.mem_flatMap.2 ⟨_, mem_inserted.1 hrow', by simp [AuthOp.locks, hid]⟩
      · have hins : AuthOp.insertToken row ∈ l.log := mem_inserted.1 (by simp [hrow])
        have hlock : AuthLock.tokenHash row.tokenHash ∈ l.log.flatMap AuthOp.locks :=
          List.mem_flatMap.2 ⟨_, hins, by simp [AuthOp.locks]⟩
        rw [hashes_view, List.mem_append, not_or]
        refine ⟨hn.hash_new, fun hmem => hc _ hlock ?_⟩
        obtain ⟨row', hrow', hhash⟩ := List.mem_map.1 hmem
        exact List.mem_flatMap.2 ⟨_, mem_inserted.1 hrow', by simp [AuthOp.locks, hhash]⟩

theorem Open.relies (h : Open l) (hinv : WellFormed l.gen l.db)
    (he : (rotation ι).Relies i l l') : Open l' :=
  Protocol.Stable.relies Open.stable hinv h he

/-- An open transaction may be committed. -/
theorem Open.rotates (h : Open l) (hinv : WellFormed l.gen l.db) :
    Rotates l.gen l.db l.log := by
  have hone : ∀ row row', .insertToken row ∈ l.log → .insertToken row' ∈ l.log → row = row' := by
    intro row row' hr hr'
    have hr := mem_inserted.2 hr
    have hr' := mem_inserted.2 hr'
    rcases h.inserts with hnil | ⟨row₀, hone, -⟩
    · simp [hnil] at hr
    · simp only [hone, List.mem_singleton] at hr hr'
      rw [hr, hr']
  refine ⟨?_, h.marks, hone⟩
  have hid : ∀ n ∈ l.db.tokens.map AuthRefreshToken.id, n < l.gen.1 := by
    intro n hn
    obtain ⟨r, hr, rfl⟩ := List.mem_map.1 hn
    exact (hinv.bound r hr).1
  have hhash : ∀ h ∈ l.db.tokens.map AuthRefreshToken.tokenHash, ∃ t < l.gen.1, h = .sha256 t := by
    intro h hh
    obtain ⟨r, hr, rfl⟩ := List.mem_map.1 hh
    exact (hinv.bound r hr).2
  rcases h.inserts with hnil | ⟨row, hrow, hn⟩
  · refine .of_lists ?_ ?_ ?_ ?_ <;> simp only [ids_view, hashes_view, hnil, List.map_nil,
      List.append_nil]
    · exact hinv.ids
    · exact hinv.hashes
    · exact hid
    · exact hhash
  · refine .of_lists ?_ ?_ ?_ ?_ <;> simp only [ids_view, hashes_view, hrow, List.map_cons,
      List.map_nil]
    · exact hinv.ids.append (List.nodup_singleton _) (by simpa using hn.id_new)
    · exact hinv.hashes.append (List.nodup_singleton _) (by simpa using hn.hash_new)
    · intro n hmem
      obtain hmem | hmem := List.mem_append.1 hmem
      · exact hid n hmem
      · rw [List.mem_singleton.1 hmem]
        exact hn.id_lt
    · intro h hmem
      obtain hmem | hmem := List.mem_append.1 hmem
      · exact hhash h hmem
      · rw [List.mem_singleton.1 hmem]
        exact hn.hash_lt

theorem Open.of_nil (h : l.log = []) : Open l :=
  ⟨fun id t hmem => by simp [h] at hmem, .inl (by simp [h, inserted])⟩

/-- The rows that a session has seen are still there. -/
theorem relies_later (h : (rotation ι).Relies i l l') {r : AuthRefreshToken}
    (hr : r ∈ l.db.tokens) : ∃ r' ∈ l'.db.tokens, r.Later r' := by
  induction h with
  | refl => exact ⟨r, hr, .rfl⟩
  | tail _ hs ih =>
    obtain ⟨r₁, hr₁, h₁⟩ := ih
    cases hs with
    | gen => exact ⟨r₁, hr₁, h₁⟩
    | commit =>
      obtain ⟨r₂, hr₂, h₂, -⟩ := later_view hr₁
      exact ⟨r₂, hr₂, h₁.trans h₂⟩

end Rotation

/-! ## The programs -/

/-- What a session that has rotated a token leaves: a commit that has marked its row. -/
def Rotated (tok : RefreshToken) (l : AuthOwn) : Prop :=
  ∃ r ∈ l.db.tokens, r.tokenHash = .sha256 tok ∧ ∃ log ∈ l.done, ∃ t, .markUsed r.id t ∈ log

/-- What a request that succeeds leaves. -/
def Result (c : AuthCall) (o : Except AuthError IssuedTokens) (l : AuthOwn) : Prop :=
  ∀ tokens, o = .ok tokens → ∀ tok, c = .refresh tok → Rotated tok l

section Programs

variable {ι : Type} {i : ι} {l l' : AuthOwn} {cfg : AuthSettings}

theorem Rotated.later {tok : RefreshToken} (h : Rotated tok l)
    (hl : ∀ r ∈ l.db.tokens, ∃ r' ∈ l'.db.tokens, r.Later r') (hdone : ∀ x ∈ l.done, x ∈ l'.done) :
    Rotated tok l' := by
  obtain ⟨r, hr, hhash, log, hlog, t, hm⟩ := h
  obtain ⟨r', hr', hlater⟩ := hl r hr
  exact ⟨r', hr', by rw [hlater.tokenHash, hhash], log, hdone _ hlog, t, by rwa [hlater.id]⟩

theorem Rotated.relies {tok : RefreshToken} (h : Rotated tok l)
    (he : (rotation ι).Relies i l l') : Rotated tok l' :=
  h.later (fun _ hr => relies_later he hr) fun x hx => by rwa [he.own.2.2.1]

/-- A method leaves no open transaction when it succeeds. -/
def MethodPost (c : AuthCall) (o : Except AuthError IssuedTokens) (l : AuthOwn) : Prop :=
  ∀ tokens, o = .ok tokens → l.log = [] ∧ ∀ tok, c = .refresh tok → Rotated tok l

/-- A method that has ended, in the session that it is served in. -/
theorem serve_rg_of_method {c : AuthCall} (hinv : WellFormed l.gen l.db)
    (h : (rotation ι).rg i (MethodPost c) (c.method cfg) l) :
    (rotation ι).rg i (Result c) (c.serve cfg) l := by
  refine Protocol.rg_sessionScope hinv (Protocol.rg_mono (fun o l' hi hq => ?_) h)
  cases o with
  | error e =>
    exact Protocol.rg_rollback fun l₁ _ _ => Protocol.rg_raise fun _ _ _ => nofun
  | ok tokens =>
    obtain ⟨hlog, hres⟩ := hq tokens rfl
    refine Protocol.rg_commit fun l₁ he hi₁ _ => ?_
    have hlog₁ : l₁.log = [] := he.own.1.trans hlog
    refine ⟨(Open.of_nil hlog₁).rotates hi₁, Protocol.rg_ret fun l₂ he₂ _ _ _ tok hc => ?_⟩
    have h₁ : Rotated tok l₁ := (hres tok hc).relies he
    refine Rotated.relies (h₁.later (fun r hr => ?_) fun x hx => ?_) he₂
    · refine ⟨r, ?_, .rfl⟩
      show r ∈ (authStore.view l₁.log l₁.db).tokens
      rw [hlog₁]
      exact hr
    · exact List.mem_append_left _ hx

/-- The insert of a new row into an open transaction that has inserted none. -/
theorem Open.insert (h : Open l) (hinv : WellFormed l.gen l.db) (hnone : inserted l.log = [])
    {u : ℕ} {dev : DeviceId} {t : ℕ} {gen : ℕ × ℕ} (hg : gen.1 = l.gen.1 + 2) (m : Unit) :
    Open ⟨gen, l.db, l.log ++ [.insertToken (issuedRow cfg u dev l.gen.1 t)], m, l.done⟩ := by
  refine ⟨fun id t' hmem => ?_, .inr ⟨issuedRow cfg u dev l.gen.1 t, ?_, ?_, ?_, ?_, ?_⟩⟩
  · obtain hmem | hmem := List.mem_append.1 hmem
    · exact h.marks id t' hmem
    · simp at hmem
  · rw [inserted_append, hnone]
    rfl
  · show l.gen.1 < gen.1
    omega
  · intro hmem
    obtain ⟨r, hr, hid⟩ := List.mem_map.1 hmem
    have hlt : r.id < l.gen.1 := (hinv.bound r hr).1
    have hid : r.id = l.gen.1 := hid
    omega
  · exact ⟨l.gen.1 + 1, by show l.gen.1 + 1 < gen.1; omega, rfl⟩
  · intro hmem
    obtain ⟨r, hr, hhash⟩ := List.mem_map.1 hmem
    obtain ⟨-, t', ht', hh⟩ := hinv.bound r hr
    have heq : t' = l.gen.1 + 1 := TokenHash.sha256.inj (hh.symm.trans hhash)
    omega

/-- `_issue_pair` and the commit. -/
theorem issuePair_rg {c : AuthCall} {u : ℕ} {dev : DeviceId} (h : Open l)
    (hnone : inserted l.log = [])
    (hres : ∀ tok, c = .refresh tok → ∃ r ∈ l.db.tokens, r.tokenHash = .sha256 tok ∧
      ∃ t, .markUsed r.id t ∈ l.log) (hinv : WellFormed l.gen l.db) :
    (rotation ι).rg i (MethodPost c)
      ((issuePair cfg u dev).bind fun tokens => TxProg.commit.bind fun _ => .ret tokens) l := by
  cases hcfg : cfg.configured with
  | false =>
    have hraise : issuePair cfg u dev =
        .raise (.serviceUnavailable "auth issuer is not configured") := by
      simp [issuePair, requireIssuer, hcfg]
    rw [hraise]
    exact Protocol.rg_raise fun _ _ _ _ h => by cases h
  | true =>
    have hret : requireIssuer cfg = .ret () := by simp [requireIssuer, hcfg]
    simp only [issuePair, hret, bind_eq, pure_eq, insertRefreshToken, TxProg.stmt, TxProg.commit,
      act_bind, ret_bind]
    refine Protocol.rg_stmt fun l₁ he₁ hi₁ _ r ops gen mem hx => ?_
    have hle := authStore.gen_le hx
    obtain ⟨t, -, -, hrun⟩ := hx
    obtain ⟨rfl, rfl, hgen⟩ : l₁.gen.1 + 1 = r ∧
        [.insertToken (issuedRow cfg u dev l₁.gen.1 t)] = ops ∧ l₁.gen.1 + 2 = gen.1 := by
      simpa [AuthStmt.run, issuedRow] using hrun
    have hopen : Open l₁ := h.relies hinv he₁
    have hnone₁ : inserted l₁.log = [] := by rw [he₁.own.1, hnone]
    have hopen₂ : Open ⟨gen, l₁.db, l₁.log ++ [.insertToken (issuedRow cfg u dev l₁.gen.1 t)], mem,
        l₁.done⟩ := hopen.insert hi₁ hnone₁ hgen.symm mem
    refine Protocol.rg_commit fun l₃ he₃ hi₃ _ => ?_
    have hinv₂ : WellFormed gen l₁.db := hi₁.mono hle
    have hopen₃ : Open l₃ := hopen₂.relies hinv₂ he₃
    refine ⟨hopen₃.rotates hi₃, Protocol.rg_ret fun l₄ he₄ _ => ?_⟩
    rintro tokens -
    refine ⟨he₄.own.1, fun tok hc => ?_⟩
    obtain ⟨row, hrow, hhash, t', hmark⟩ := hres tok hc
    obtain ⟨row₁, hrow₁, hlater₁⟩ := relies_later he₁ hrow
    obtain ⟨row₃, hrow₃, hlater₃⟩ := relies_later he₃ hrow₁
    obtain ⟨row₄, hrow₄, hlater₄, -⟩ :
        ∃ r' ∈ (authStore.view l₃.log l₃.db).tokens, row₃.Later r' ∧ _ := later_view hrow₃
    have hlater : row.Later row₄ := (hlater₁.trans hlater₃).trans hlater₄
    refine Rotated.relies ⟨row₄, hrow₄, by rw [hlater.tokenHash, hhash], l₃.log, by simp, t', ?_⟩ he₄
    rw [he₃.own.1, hlater.id]
    show _ ∈ l₁.log ++ _
    rw [he₁.own.1]
    exact List.mem_append_left _ hmark

/-- The writes of the statements that leave the tokens. -/
def LeavesRows (o : AuthOp) : Prop :=
  (∀ row, o ≠ .insertToken row) ∧ ∀ id t, o ≠ .markUsed id t

theorem LeavesTokens.rows (s : AuthStmt) (hs : LeavesTokens (.stmt s)) (g : ℕ × ℕ) (m : Unit)
    (d : AuthDb) (r : s.Resp) (ops : List AuthOp) (g' : ℕ × ℕ) (m' : Unit)
    (hx : authStore.exec s g m d r ops g' m') : ∀ o ∈ ops, LeavesRows o := by
  obtain ⟨t, -, -, hrun⟩ := hx
  have hops : ops = (s.run t g.1 d).2.1 := by rw [hrun]
  rw [hops]
  cases s with
  | insertRefreshToken => exact hs.elim
  | markUsed => exact hs.elim
  | revokeChain => exact hs.elim
  | uuid4 => simp [AuthStmt.run]
  | now => simp [AuthStmt.run]
  | selectDevice => simp [AuthStmt.run]
  | insertUser => simp [AuthStmt.run, LeavesRows]
  | selectIdentity => simp [AuthStmt.run]
  | hasApple => simp [AuthStmt.run]
  | selectRefreshToken => simp [AuthStmt.run]
  | touchDevice => simp only [AuthStmt.run]; split <;> simp [LeavesRows]
  | insertDevice => simp only [AuthStmt.run]; split <;> simp [LeavesRows]
  | upsertDevice => simp only [AuthStmt.run]; split <;> simp [LeavesRows]
  | insertIdentity => simp only [AuthStmt.run]; split <;> simp [LeavesRows]

theorem Open.of_leaves (h : ∀ o ∈ l.log, LeavesRows o) : Open l ∧ inserted l.log = [] := by
  have hnil : inserted l.log = [] := by
    refine List.eq_nil_iff_forall_not_mem.2 fun row hrow => ?_
    exact (h _ (mem_inserted.1 hrow)).1 row rfl
  exact ⟨⟨fun id t hmem => absurd rfl ((h _ hmem).2 id t), .inl hnil⟩, hnil⟩

/-- A method whose first part leaves the tokens, and that then issues a pair. -/
theorem signIn_rg {c : AuthCall} (hc : ∀ t, c ≠ .refresh t) {first : AuthProg (ℕ × DeviceId)}
    (hfirst : first.Only LeavesTokens) (hlog : l.log = []) (hinv : WellFormed l.gen l.db) :
    (rotation ι).rg i (MethodPost c) (first.bind fun x =>
      (issuePair cfg x.1 x.2).bind fun tokens => TxProg.commit.bind fun _ => .ret tokens) l := by
  have hmay : ∀ g d log, WellFormed g d → (∀ o ∈ log, LeavesRows o) → Rotates g d log :=
    fun g d log hi hl => (Open.of_leaves (l := ⟨g, d, log, (), []⟩) hl).1.rotates hi
  have hrun : (rotation ι).rg i (fun _ l' => ∀ o ∈ l'.log, LeavesRows o) first l :=
    Protocol.rg_of_only LeavesTokens.rows hmay first hfirst (by simp [hlog])
  refine Protocol.rg_bind hinv (Protocol.rg_mono (fun o l' hi hl => ?_) hrun)
  cases o with
  | error e => exact Protocol.rg_raise fun _ _ _ => nofun
  | ok x =>
    obtain ⟨hopen, hnone⟩ := Open.of_leaves hl
    exact issuePair_rg hopen hnone (fun tok h => absurd h (hc tok)) hi

theorem registerOrToken_rg (dev : Option DeviceId) (hlog : l.log = [])
    (hinv : WellFormed l.gen l.db) :
    (rotation ι).rg i (MethodPost (.register dev)) (registerOrToken cfg dev) l := by
  rw [registerOrToken_split]
  exact signIn_rg (by rintro t ⟨⟩) (registerFirst_only dev) hlog hinv

theorem signInWithApple_rg (verified : Except AuthError VerifiedAppleIdentity)
    (dev : Option DeviceId) (hlog : l.log = []) (hinv : WellFormed l.gen l.db) :
    (rotation ι).rg i (MethodPost (.apple verified dev)) (signInWithApple cfg verified dev) l := by
  rw [signInWithApple_split]
  exact signIn_rg (by rintro t ⟨⟩) (appleFirst_only verified dev) hlog hinv

/-- The rotation of a row that has been read. -/
theorem rotate_rg {tok : RefreshToken} {row : AuthRefreshToken} (hlog : l.log = [])
    (hrow : ∃ r ∈ l.db.tokens, row.Later r) (hhash : row.tokenHash = .sha256 tok) :
    (rotation ι).rg i (MethodPost (.refresh tok)) (rotate cfg row) l := by
  obtain ⟨row₀, hrow, hlater₀⟩ := hrow
  simp only [rotate, markUsed, TxProg.stmt, bind_eq, pure_eq, act_bind, ret_bind]
  refine Protocol.rg_stmt fun l₁ he₁ hi₁ htest r ops gen mem hx => ?_
  have hgen := authStore.gen_le hx
  obtain ⟨t, -, -, hrun⟩ := hx
  obtain ⟨rfl, -⟩ : [.markUsed row.id t] = ops ∧ l₁.gen.1 = gen.1 := by
    simpa [AuthStmt.run] using hrun
  obtain ⟨row₁, hrow₁, hlater₁⟩ := relies_later he₁ hrow
  have hlater : row.Later row₁ := hlater₀.trans hlater₁
  have hlog₁ : l₁.log = [] := he₁.own.1.trans hlog
  have hview : l₁.view authStore = l₁.db := by
    show authStore.view l₁.log l₁.db = l₁.db
    rw [hlog₁]
    rfl
  -- the test: the row is unused when it is marked
  rw [hview] at htest
  have hunused : row₁.usedAt = none := htest row₁ hrow₁ hlater.id
  refine issuePair_rg ⟨fun id t' hmem => ?_, .inl ?_⟩ ?_ (fun tok' hc => ?_) (hi₁.mono hgen)
  · obtain ⟨rfl, rfl⟩ : id = row.id ∧ t' = t := by simpa [hlog₁] using hmem
    exact ⟨row₁, hrow₁, hlater.id, hunused⟩
  · simp [hlog₁, inserted]
  · simp [hlog₁, inserted]
  · obtain rfl := AuthCall.refresh.inj hc
    refine ⟨row₁, hrow₁, by rw [hlater.tokenHash, hhash], t, ?_⟩
    show _ ∈ l₁.log ++ _
    rw [hlater.id]
    simp

/-- The end of the chain of a token that is presented again. -/
theorem reuse_rg {tok : RefreshToken} {u : ℕ} {dev : DeviceId} {e : AuthError} (hlog : l.log = []) :
    (rotation ι).rg i (MethodPost (.refresh tok))
      ((revokeChain u dev).bind fun _ => TxProg.commit.bind fun _ => .raise e) l := by
  simp only [revokeChain, TxProg.stmt, TxProg.commit, act_bind, ret_bind]
  refine Protocol.rg_stmt fun l₁ he₁ hi₁ _ r ops gen mem hx => ?_
  have hinv := hi₁.mono (authStore.gen_le hx)
  obtain ⟨t, -, -, hrun⟩ := hx
  obtain ⟨rfl, -⟩ : [.revoke ((l₁.view authStore).chain u dev) t] = ops ∧ l₁.gen.1 = gen.1 := by
    simpa [AuthStmt.run] using hrun
  have hlog₁ : l₁.log = [] := he₁.own.1.trans hlog
  have hopen : Open ⟨gen, l₁.db, l₁.log ++ [.revoke ((l₁.view authStore).chain u dev) t], mem,
      l₁.done⟩ := by
    refine (Open.of_leaves fun o ho => ?_).1
    obtain rfl : o = .revoke ((l₁.view authStore).chain u dev) t := by simpa [hlog₁] using ho
    exact ⟨(fun _ h => by cases h), fun _ _ h => by cases h⟩
  refine Protocol.rg_commit fun l₂ he₂ hi₂ _ => ⟨(hopen.relies hinv he₂).rotates hi₂, ?_⟩
  exact Protocol.rg_raise fun _ _ _ _ h => by cases h

theorem refresh_rg (tok : RefreshToken) (hlog : l.log = []) :
    (rotation ι).rg i (MethodPost (.refresh tok)) (refresh cfg tok) l := by
  cases hcfg : cfg.configured with
  | false =>
    have hraise : refresh cfg tok =
        .raise (.serviceUnavailable "auth issuer is not configured") := by
      simp [refresh, requireIssuer, hcfg]
    rw [hraise]
    exact Protocol.rg_raise fun _ _ _ _ h => by cases h
  | true =>
    have hret : requireIssuer cfg = .ret () := by simp [requireIssuer, hcfg]
    simp only [refresh, hret, bind_eq, ret_bind, selectRefreshToken, TxProg.stmt, act_bind]
    refine Protocol.rg_stmt fun l₁ he₁ hi₁ _ o ops gen mem hx => ?_
    obtain ⟨t, -, -, hrun⟩ := hx
    have hlog₁ : l₁.log = [] := he₁.own.1.trans hlog
    have hview : l₁.view authStore = l₁.db := by
      show authStore.view l₁.log l₁.db = l₁.db
      rw [hlog₁]
      rfl
    rw [hview] at hrun
    obtain ⟨rfl, rfl, -⟩ : l₁.db.token tok = o ∧ [] = ops ∧ l₁.gen.1 = gen.1 := by
      simpa [AuthStmt.run, AuthDb.token] using hrun
    cases hrow : l₁.db.token tok with
    | none => exact Protocol.rg_raise fun _ _ _ _ h => by cases h
    | some row =>
      obtain ⟨hmem, hhash⟩ := AuthDb.token_some hrow
      by_cases hused : row.usedAt = none
      · by_cases hrev : row.revokedAt = none
        · simp only [hused, hrev, ne_eq, not_true_eq_false, if_false]
          refine Protocol.rg_stmt fun l₂ he₂ hi₂ _ r ops gen' mem' hx => ?_
          obtain ⟨t₂, -, -, hrun₂⟩ := hx
          obtain ⟨rfl, rfl, -⟩ : t₂ = r ∧ [] = ops ∧ l₂.gen.1 = gen'.1 := by
            simpa [AuthStmt.run] using hrun₂
          show (rotation ι).rg i _ (rotateUnexpired cfg row t₂) _
          by_cases hexp : row.expiresAt ≤ t₂
          · rw [rotateUnexpired, if_pos hexp]
            exact Protocol.rg_raise fun _ _ _ _ h => by cases h
          · rw [rotateUnexpired, if_neg hexp]
            refine rotate_rg ?_ (relies_later he₂ hmem) hhash
            show l₂.log ++ [] = []
            rw [he₂.own.1, List.append_nil]
            simp [hlog₁]
        · simp only [hused, hrev, ne_eq, not_true_eq_false, not_false_eq_true, if_false, if_true]
          exact Protocol.rg_raise fun _ _ _ _ h => by cases h
      · simp only [hused, ne_eq, not_false_eq_true, if_true]
        exact reuse_rg (by simp [hlog₁])

/-- **Every request keeps the protocol.** -/
theorem serve_rg (c : AuthCall) (hlog : l.log = []) (hinv : WellFormed l.gen l.db) :
    (rotation ι).rg i (Result c) (c.serve cfg) l := by
  refine serve_rg_of_method hinv ?_
  cases c with
  | register dev => exact registerOrToken_rg dev hlog hinv
  | apple verified dev => exact signInWithApple_rg verified dev hlog hinv
  | refresh tok => exact refresh_rg tok hlog

end Programs

/-! ## Pools of requests -/

section Pools

variable {ι : Type} [DecidableEq ι]

abbrev AuthPool (ι : Type) : Type :=
  Pool ι AuthStmt AuthStmt.Resp AuthDb AuthOp (ℕ × ℕ) Unit AuthError IssuedTokens

/-- The pool in which every session is about to serve its request; no user has signed in yet. -/
def requests (cfg : AuthSettings) (calls : ι → AuthCall) : AuthPool ι :=
  Pool.begin (0, 0) .empty () fun i => (calls i).serve cfg

/-- A commit exchanges the token with the id `id`. -/
def Exchanges (id : ℕ) (c : ι × List AuthOp) : Prop := ∃ t, .markUsed id t ∈ c.2

/-- The token `b` has been issued in exchange for the token `a`. -/
def Exchanged (hist : List (ι × List AuthOp)) (a b : ℕ) : Prop :=
  ∃ c ∈ hist, Exchanges a c ∧ ∃ row, .insertToken row ∈ c.2 ∧ row.id = b

/-- The rotation lineage of a token: what has been issued in exchange for it, in any number of
steps. -/
def Lineage (hist : List (ι × List AuthOp)) : ℕ → ℕ → Prop :=
  Relation.ReflTransGen (Exchanged hist)

variable {hist : List (ι × List AuthOp)} {d : AuthDb}

omit [DecidableEq ι] in
/-- A token that has been exchanged is used. -/
theorem Commits.used (h : Commits authStore (rotation ι).may .empty hist d) {id : ℕ}
    {c : ι × List AuthOp} (hc : c ∈ hist) (hx : Exchanges id c) :
    ∃ r ∈ d.tokens, r.id = id ∧ r.usedAt ≠ none := by
  induction h with
  | nil => cases hc
  | @snoc hist d i g log h hm ih =>
    obtain hc | hc := List.mem_append.1 hc
    · obtain ⟨r, hr, rfl, hu⟩ := ih hc
      obtain ⟨r', hr', hlater, -⟩ : ∃ r' ∈ (authStore.view log d).tokens, r.Later r' ∧ _ :=
        later_view hr
      exact ⟨r', hr', hlater.id, hlater.used hu⟩
    · obtain rfl := List.mem_singleton.1 hc
      obtain ⟨t, ht⟩ := hx
      obtain ⟨r, hr, rfl, -⟩ := hm.marks id t ht
      obtain ⟨r', hr', hlater, hu⟩ : ∃ r' ∈ (authStore.view log d).tokens, r.Later r' ∧
          ((∃ t, .markUsed r.id t ∈ log) → r'.usedAt ≠ none) := later_view hr
      exact ⟨r', hr', hlater.id, hu ⟨t, ht⟩⟩

omit [DecidableEq ι] in
theorem Commits.ids (h : Commits authStore (rotation ι).may .empty hist d) :
    (d.tokens.map AuthRefreshToken.id).Nodup := by
  cases h with
  | nil => exact .nil
  | snoc h hm => exact hm.wellFormed.ids

omit [DecidableEq ι] in
/-- A token is exchanged by one commit at most. -/
theorem Commits.exchanges_once (h : Commits authStore (rotation ι).may .empty hist d) (id : ℕ) :
    hist.Pairwise fun c c' => ¬(Exchanges id c ∧ Exchanges id c') := by
  induction h with
  | nil => exact .nil
  | @snoc hist d i g log h hm ih =>
    refine List.pairwise_append.2 ⟨ih, List.pairwise_singleton _ _, fun c hc c' hc' => ?_⟩
    obtain rfl := List.mem_singleton.1 hc'
    rintro ⟨hx, t, ht⟩
    -- the row is used already, so that it cannot be marked again
    obtain ⟨r, hr, hid, hu⟩ := Commits.used h hc hx
    obtain ⟨r', hr', hid', hu'⟩ := hm.marks id t ht
    have heq : r = r' := List.inj_on_of_nodup_map (Commits.ids h) hr hr' (hid.trans hid'.symm)
    exact hu (heq ▸ hu')

omit [DecidableEq ι] in
/-- The commits that exchange a token are one. -/
theorem Commits.exchange_unique (h : Commits authStore (rotation ι).may .empty hist d) {id : ℕ}
    {c c' : ι × List AuthOp} (hc : c ∈ hist) (hc' : c' ∈ hist) (hx : Exchanges id c)
    (hx' : Exchanges id c') : c = c' := by
  by_contra hne
  obtain ⟨l₁, l₂, rfl⟩ := List.append_of_mem hc
  have hpair := Commits.exchanges_once h id
  rw [List.pairwise_append, List.pairwise_cons] at hpair
  obtain hc' | hc' := List.mem_append.1 hc'
  · exact hpair.2.2 c' hc' c (List.mem_cons_self ..) ⟨hx', hx⟩
  · obtain rfl | hc' := List.mem_cons.1 hc'
    · exact hne rfl
    · exact hpair.2.1.1 c' hc' ⟨hx, hx'⟩

omit [DecidableEq ι] in
/-- A commit inserts one token at most. -/
theorem Commits.inserts_one (h : Commits authStore (rotation ι).may .empty hist d)
    {c : ι × List AuthOp} (hc : c ∈ hist) {row row' : AuthRefreshToken}
    (hr : .insertToken row ∈ c.2) (hr' : .insertToken row' ∈ c.2) : row = row' := by
  induction h with
  | nil => cases hc
  | snoc h hm ih =>
    obtain hc | hc := List.mem_append.1 hc
    · exact ih hc
    · obtain rfl := List.mem_singleton.1 hc
      exact hm.inserts row row' hr hr'

omit [DecidableEq ι] in
/-- A token is exchanged for one token. -/
theorem Commits.exchanged_unique (h : Commits authStore (rotation ι).may .empty hist d)
    {a b b' : ℕ} (hb : Exchanged hist a b) (hb' : Exchanged hist a b') : b = b' := by
  obtain ⟨c, hc, hx, row, hrow, rfl⟩ := hb
  obtain ⟨c', hc', hx', row', hrow', rfl⟩ := hb'
  obtain rfl := Commits.exchange_unique h hc hc' hx hx'
  rw [Commits.inserts_one h hc hrow hrow']

omit [DecidableEq ι] in
/-- An active token is the last of its lineage. -/
theorem Commits.lineage_end (h : Commits authStore (rotation ι).may .empty hist d)
    {a : AuthRefreshToken} (ha : a ∈ d.tokens) (hactive : a.Active) {n : ℕ}
    (hl : Lineage hist a.id n) : n = a.id := by
  obtain heq | ⟨x, ⟨c, hc, hx, -⟩, -⟩ := Relation.ReflTransGen.cases_head hl
  · exact heq.symm
  · obtain ⟨r, hr, hid, hu⟩ := Commits.used h hc hx
    have heq : r = a := List.inj_on_of_nodup_map (Commits.ids h) hr ha hid
    exact absurd hactive.1 (heq ▸ hu)

/-- **A refresh token is for a single use**, in every run in which a row that is marked used has
not been used since it was read: every token is exchanged by one commit at most, two requests that
have both exchanged it are the same, and of each rotation lineage one token at most is neither
used nor revoked. -/
theorem refresh_single_use {cfg : AuthSettings} (calls : ι → AuthCall) {P : AuthPool ι}
    (hP : (requests cfg calls).ReachesIf authStore (fun _ => StillUnused) P) :
    (∀ id, P.hist.Pairwise fun c c' => ¬(Exchanges id c ∧ Exchanges id c')) ∧
    (∀ i j tok ti tj, calls i = .refresh tok → calls j = .refresh tok →
      (P.thr i).prog = some (.ret ti) → (P.thr j).prog = some (.ret tj) → i = j) ∧
    ∀ root, ∀ a ∈ P.db.tokens, ∀ b ∈ P.db.tokens, Lineage P.hist root a.id →
      Lineage P.hist root b.id → a.Active → b.Active → a = b := by
  have hk : Pool.Keeps (rotation ι) (fun i => Result (calls i)) .empty P :=
    Pool.ReachesIf.keeps hP
      (Pool.begin_keeps .empty fun i => serve_rg (calls i) rfl WellFormed.empty)
  refine ⟨Commits.exchanges_once hk.run, fun i j tok ti tj hi hj hti htj => ?_,
    fun root a ha b hb hra hrb hactive hactive' => ?_⟩
  · obtain ⟨r, hr, hhash, log, hlog, hx⟩ := hk.result hti ti rfl tok hi
    obtain ⟨r', hr', hhash', log', hlog', hx'⟩ := hk.result htj tj rfl tok hj
    obtain rfl : r = r' := hk.inv.eq_of_hash hr hr' (hhash.trans hhash'.symm)
    have heq := Commits.exchange_unique hk.run (Pool.mem_hist_of_commitsOf hlog)
      (Pool.mem_hist_of_commitsOf hlog') hx hx'
    exact congrArg Prod.fst heq
  · have hun : Relator.RightUnique (Exchanged P.hist) :=
      fun _ _ _ h h' => Commits.exchanged_unique hk.run h h'
    obtain hab | hba := Relation.ReflTransGen.total_of_right_unique hun hra hrb
    · exact hk.inv.eq_of_id ha hb (Commits.lineage_end hk.run ha hactive hab).symm
    · exact hk.inv.eq_of_id ha hb (Commits.lineage_end hk.run hb hactive' hba)

end Pools

/-- A device that registers, and two refreshes of its token. -/
def twoRefreshes : Fin 3 → AuthCall
  | 0 => .register (some (.given "phone"))
  | _ => .refresh 2

/-- The request has been answered with a pair of tokens. -/
def answered : Option (AuthProg IssuedTokens) → Bool
  | some (.ret _) => true
  | _ => false

theorem answered_eq {p : Option (AuthProg IssuedTokens)} (h : answered p = true) :
    ∃ tokens, p = some (.ret tokens) := by
  unfold answered at h
  split at h
  · exact ⟨_, rfl⟩
  · cases h

/-- The test `StillUnused`, computed. -/
def stillUnused (d : AuthDb) : TxAct AuthStmt → Bool
  | .stmt (.markUsed id) => d.tokens.all fun r => r.id ≠ id || r.usedAt.isNone
  | _ => true

theorem stillUnused_iff (d : AuthDb) (e : TxAct AuthStmt) :
    stillUnused d e = true ↔ StillUnused d e := by
  cases e with
  | stmt s => cases s <;> simp [stillUnused, StillUnused, ← imp_iff_not_or]
  | commit => simp [stillUnused, StillUnused]
  | rollback => simp [stillUnused, StillUnused]

/-- The first refresh has been answered, and the second has not yet begun. -/
def firstAnswered (P : AuthPool (Fin 3)) : Bool :=
  answered (P.thr 1).prog && P.db.tokens.length = 2

/-- One of the two refreshes, served before the other. -/
theorem refresh_single_use_run : ∃ P : AuthPool (Fin 3), firstAnswered P ∧
    ∀ id, P.hist.Pairwise fun c c' => ¬(Exchanges id c ∧ Exchanges id c') := by
  have hids : ∀ i : Fin 3, i ∈ [0, 1, 2] := by decide
  have hplay : (Pool.playIf authHandler (fun _ => stillUnused) [0, 1, 2]
      [0, 0, 0, 0, 0, 0, 0, 1, 1, 1, 1, 1, 1] (requests issuer twoRefreshes) ()).any
        (fun r => firstAnswered r.1) = true := by rfl
  obtain ⟨P, hP, htest⟩ := Pool.exists_of_playIf hids hplay
  simp only [stillUnused_iff] at hP
  exact ⟨P, htest, (refresh_single_use twoRefreshes hP).1⟩

/-- Both refreshes have been answered. -/
def bothAnswered (P : AuthPool (Fin 3)) : Bool :=
  answered (P.thr 1).prog && answered (P.thr 2).prog

/-- Both refreshes have read the row before one of them marks it. -/
theorem refresh_single_use_fails :
    ∃ P : AuthPool (Fin 3), (requests issuer twoRefreshes).Reaches authStore P ∧
      twoRefreshes 1 = .refresh 2 ∧ twoRefreshes 2 = .refresh 2 ∧
      (∃ tokens, (P.thr 1).prog = some (.ret tokens)) ∧
      ∃ tokens, (P.thr 2).prog = some (.ret tokens) := by
  have hids : ∀ i : Fin 3, i ∈ [0, 1, 2] := by decide
  have hplay : (Pool.play authHandler [0, 1, 2]
      [0, 0, 0, 0, 0, 0, 0, 1, 2, 1, 1, 1, 1, 1, 2, 2, 2, 2, 2]
      (requests issuer twoRefreshes) ()).any (fun r => bothAnswered r.1) = true := by rfl
  obtain ⟨P, hP, htest⟩ := Pool.exists_of_play hids hplay
  rw [bothAnswered, Bool.and_eq_true] at htest
  exact ⟨P, hP, rfl, rfl, answered_eq htest.1, answered_eq htest.2⟩

end ChatBackend.Auth
