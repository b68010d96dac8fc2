import ChatBackend.Auth.Rotation

/-!
# The identities of users under interleaving

A first sign-in with Apple links the identity to the user of its device when that user has none.
The check and the insert are two statements; what keeps two sign-ins on one device apart is the
lock on the row of the device, which a sign-in takes when it has found the row
(`UPDATE .. SET last_seen_at`) or has inserted it, but not when its insert has met a row that was
not there when it looked. Two sign-ins of which one has come that way can link two identities to
one user (`identity_mapping_fails`). When no sign-in comes that way to a user without an identity,
the mapping is as it should be (`identity_mapping`).
-/

namespace ChatBackend.Auth

open Prog Store

/-! ## What a log does to the other tables -/

/-- The users that a log inserts. -/
def newUsers (log : List AuthOp) : List ℕ :=
  log.filterMap fun o => match o with
    | .insertUser id => some id
    | _ => none

/-- The identities that a log inserts. -/
def newIdentities (log : List AuthOp) : List AuthIdentity :=
  log.filterMap fun o => match o with
    | .insertIdentity row => some row
    | _ => none

/-- The devices that a log inserts. -/
def newDevices (log : List AuthOp) : List AuthDevice :=
  log.filterMap fun o => match o with
    | .insertDevice row => some row
    | _ => none

/-- What a write makes of the user of a device. -/
def AuthOp.onDevice (dev : DeviceId) (u : Option ℕ) : AuthOp → Option ℕ
  | insertDevice row => if row.deviceId = dev then u.or (some row.userId) else u
  | setDeviceUser dev' v => if dev' = dev then u.map fun _ => v else u
  | _ => u

/-- What a log makes of the user of a device. -/
def onDevice (log : List AuthOp) (dev : DeviceId) (u : Option ℕ) : Option ℕ :=
  log.foldl (fun u o => o.onDevice dev u) u

/-- The user and the device of a token. -/
def AuthRefreshToken.pair (r : AuthRefreshToken) : ℕ × DeviceId := (r.userId, r.deviceId)

/-- The pairs that tokens have been issued to. -/
def AuthDb.pairs (d : AuthDb) : List (ℕ × DeviceId) := d.tokens.map AuthRefreshToken.pair

/-- The user has an Apple identity. -/
def AuthDb.Owned (d : AuthDb) (u : ℕ) : Prop := ∃ r ∈ d.identities, r.userId = u

section Logs

variable (l l' log : List AuthOp) (d : AuthDb)

@[simp] theorem newUsers_append : newUsers (l ++ l') = newUsers l ++ newUsers l' :=
  List.filterMap_append

@[simp] theorem newIdentities_append :
    newIdentities (l ++ l') = newIdentities l ++ newIdentities l' := List.filterMap_append

@[simp] theorem newDevices_append : newDevices (l ++ l') = newDevices l ++ newDevices l' :=
  List.filterMap_append

theorem onDevice_append (dev : DeviceId) (u : Option ℕ) :
    onDevice (l ++ l') dev u = onDevice l' dev (onDevice l dev u) := List.foldl_append

variable {l}

theorem mem_newUsers {u : ℕ} : u ∈ newUsers l ↔ .insertUser u ∈ l := by
  rw [newUsers, List.mem_filterMap]
  constructor
  · rintro ⟨o, ho, h⟩
    cases o <;> simp at h
    exact h ▸ ho
  · exact fun h => ⟨_, h, rfl⟩

theorem mem_newIdentities {row : AuthIdentity} :
    row ∈ newIdentities l ↔ .insertIdentity row ∈ l := by
  rw [newIdentities, List.mem_filterMap]
  constructor
  · rintro ⟨o, ho, h⟩
    cases o <;> simp at h
    exact h ▸ ho
  · exact fun h => ⟨_, h, rfl⟩

theorem mem_newDevices {row : AuthDevice} : row ∈ newDevices l ↔ .insertDevice row ∈ l := by
  rw [newDevices, List.mem_filterMap]
  constructor
  · rintro ⟨o, ho, h⟩
    cases o <;> simp at h
    exact h ▸ ho
  · exact fun h => ⟨_, h, rfl⟩

theorem users_view : (authStore.view log d).users = d.users ++ newUsers log := by
  induction log generalizing d with
  | nil => simp [newUsers]
  | cons o log ih =>
    rw [view_cons, ih]
    cases o <;> simp [authStore, AuthOp.apply, newUsers]

theorem identities_view : (authStore.view log d).identities = d.identities ++ newIdentities log := by
  induction log generalizing d with
  | nil => simp [newIdentities]
  | cons o log ih =>
    rw [view_cons, ih]
    cases o <;> simp [authStore, AuthOp.apply, newIdentities]

theorem deviceIds_view : (authStore.view log d).devices.map AuthDevice.deviceId =
    d.devices.map AuthDevice.deviceId ++ (newDevices log).map AuthDevice.deviceId := by
  induction log generalizing d with
  | nil => simp [newDevices]
  | cons o log ih =>
    rw [view_cons, ih]
    cases o with
    | setDeviceUser dev u =>
      have : (d.devices.map (AuthDevice.setUser dev u)).map AuthDevice.deviceId =
          d.devices.map AuthDevice.deviceId := by
        rw [List.map_map]
        refine List.map_congr_left fun r _ => ?_
        show (r.setUser dev u).deviceId = r.deviceId
        unfold AuthDevice.setUser
        split <;> rfl
      simp only [authStore, AuthOp.apply, this]
      rfl
    | insertUser => rfl
    | insertDevice row => simp [authStore, AuthOp.apply, newDevices]
    | touchDevice => rfl
    | insertIdentity => rfl
    | insertToken => rfl
    | markUsed => rfl
    | revoke => rfl

theorem pairs_view : (authStore.view log d).pairs =
    d.pairs ++ (inserted log).map AuthRefreshToken.pair := by
  induction log generalizing d with
  | nil => simp [inserted]
  | cons o log ih =>
    rw [view_cons, ih]
    cases o with
    | markUsed n t =>
      have : (d.tokens.map (AuthRefreshToken.markUsed n t)).map AuthRefreshToken.pair = d.pairs := by
        rw [List.map_map]
        refine List.map_congr_left fun r _ => ?_
        have h := AuthRefreshToken.later_markUsed n t r
        show (_, _) = (_, _)
        rw [h.userId, h.deviceId]
      simp only [authStore, AuthOp.apply, AuthDb.pairs, this]
      rfl
    | revoke ids t =>
      have : (d.tokens.map (AuthRefreshToken.revoke ids t)).map AuthRefreshToken.pair = d.pairs := by
        rw [List.map_map]
        refine List.map_congr_left fun r _ => ?_
        have h := AuthRefreshToken.later_revoke ids t r
        show (_, _) = (_, _)
        rw [h.userId, h.deviceId]
      simp only [authStore, AuthOp.apply, AuthDb.pairs, this]
      rfl
    | insertToken row => simp [authStore, AuthOp.apply, inserted, AuthDb.pairs]
    | insertUser => rfl
    | insertDevice => rfl
    | touchDevice => rfl
    | setDeviceUser => rfl
    | insertIdentity => rfl

theorem AuthOp.deviceUser_apply (o : AuthOp) (dev : DeviceId) :
    (o.apply d).deviceUser dev = o.onDevice dev (d.deviceUser dev) := by
  cases o with
  | insertDevice row =>
    simp only [AuthOp.apply, AuthDb.deviceUser, AuthOp.onDevice, List.find?_append]
    by_cases h : row.deviceId = dev
    · cases hf : d.devices.find? (fun r => r.deviceId = dev) <;> simp [h]
    · cases hf : d.devices.find? (fun r => r.deviceId = dev) <;> simp [h]
  | setDeviceUser dev' v =>
    have hmap : ∀ devices : List AuthDevice,
        ((devices.map (AuthDevice.setUser dev' v)).find? fun r => r.deviceId = dev).map
          AuthDevice.userId =
        AuthOp.onDevice dev ((devices.find? fun r => r.deviceId = dev).map AuthDevice.userId)
          (.setDeviceUser dev' v) := by
      intro devices
      induction devices with
      | nil => simp [AuthOp.onDevice]
      | cons r devices ih =>
        have hid : (r.setUser dev' v).deviceId = r.deviceId := by
          unfold AuthDevice.setUser
          split <;> rfl
        rw [List.map_cons, List.find?_cons, List.find?_cons, hid]
        by_cases h : r.deviceId = dev
        · simp only [h, decide_true, Option.map_some, AuthOp.onDevice, AuthDevice.setUser, eq_comm]
          by_cases h' : dev = dev'
          · simp [h']
          · simp [h']
        · simpa only [h, decide_false] using ih
    exact hmap d.devices
  | insertUser => rfl
  | touchDevice => rfl
  | insertIdentity => rfl
  | insertToken => rfl
  | markUsed => rfl
  | revoke => rfl

theorem deviceUser_view (dev : DeviceId) :
    (authStore.view log d).deviceUser dev = onDevice log dev (d.deviceUser dev) := by
  induction log generalizing d with
  | nil => rfl
  | cons o log ih =>
    rw [view_cons, ih]
    show onDevice log dev ((o.apply d).deviceUser dev) = _
    rw [AuthOp.deviceUser_apply]
    rfl

/-- A device that is not written keeps its user. -/
theorem onDevice_frame {dev : DeviceId} (h : AuthLock.device dev ∉ log.flatMap AuthOp.locks)
    (u : Option ℕ) : onDevice log dev u = u := by
  induction log generalizing u with
  | nil => rfl
  | cons o log ih =>
    rw [List.flatMap_cons, List.mem_append, not_or] at h
    have ho : o.onDevice dev u = u := by
      cases o with
      | insertDevice row =>
        have : row.deviceId ≠ dev := by simpa [AuthOp.locks, eq_comm] using h.1
        simp [AuthOp.onDevice, this]
      | setDeviceUser dev' v =>
        have : dev' ≠ dev := by simpa [AuthOp.locks, eq_comm] using h.1
        simp [AuthOp.onDevice, this]
      | insertUser => rfl
      | touchDevice => rfl
      | insertIdentity => rfl
      | insertToken => rfl
      | markUsed => rfl
      | revoke => rfl
    show onDevice log dev (o.onDevice dev u) = u
    rw [ho]
    exact ih h.2 u

theorem owned_view {u : ℕ} : (authStore.view log d).Owned u ↔
    d.Owned u ∨ ∃ r ∈ newIdentities log, r.userId = u := by
  unfold AuthDb.Owned
  rw [identities_view]
  simp only [List.mem_append, or_and_right, exists_or]

end Logs

/-! ## The protocol -/

/-- The invariant of the committed tables. -/
structure Linked (g : ℕ × ℕ) (d : AuthDb) : Prop where
  subjects : (d.identities.map AuthIdentity.subject).Nodup
  owners : (d.identities.map AuthIdentity.userId).Nodup
  devices : (d.devices.map AuthDevice.deviceId).Nodup
  fresh : ∀ u ∈ d.users, u < g.1
  identityUser : ∀ r ∈ d.identities, r.userId ∈ d.users
  pairUser : ∀ p ∈ d.pairs, p.1 ∈ d.users
  /-- The user of a device has a token for it. -/
  devicePair : ∀ dev u, d.deviceUser dev = some u → (u, dev) ∈ d.pairs
  /-- A user without an identity has tokens for one device only. -/
  pairs : ∀ u, ¬d.Owned u → ∀ dev dev', (u, dev) ∈ d.pairs → (u, dev') ∈ d.pairs → dev = dev'

theorem Linked.mono {g g' : ℕ × ℕ} {d : AuthDb} (hg : g ≤ g') (h : Linked g d) : Linked g' d :=
  ⟨h.subjects, h.owners, h.devices, fun u hu => lt_of_lt_of_le (h.fresh u hu) hg.1,
    h.identityUser, h.pairUser, h.devicePair, h.pairs⟩

/-- What a session may commit. -/
structure Links (g : ℕ × ℕ) (d : AuthDb) (log : List AuthOp) : Prop where
  linked : Linked g (authStore.view log d)
  /-- A user gets an identity when it is created, or under the lock of a device that it has a token
  for. -/
  owned : ∀ u, ¬d.Owned u → (authStore.view log d).Owned u →
    u ∉ d.users ∨ ∃ dev, AuthLock.device dev ∈ log.flatMap AuthOp.locks ∧ (u, dev) ∈ d.pairs
  /-- A device goes to a user with an identity only. -/
  device : ∀ dev v w, d.deviceUser dev = some v → (authStore.view log d).deviceUser dev = some w →
    w = v ∨ (authStore.view log d).Owned w

/-- A sign-in whose device was not there when it looked, and is there when it inserts it, finds a
user with an identity. -/
def MeetsOwner : AuthCall → AuthDb → TxAct AuthStmt → Prop
  | .apple .., d, .stmt (.insertDevice _ dev) => ∀ v, d.deviceUser dev = some v → d.Owned v
  | _, _, _ => True

section Identity

variable {ι : Type}

/-- The protocol of the sign-ins. -/
def linking (calls : ι → AuthCall) : Protocol authStore ι where
  inv := Linked
  may _ g d log := Links g d log
  test i := MeetsOwner (calls i)
  inv_gen hg h := h.mono hg
  inv_commit _ h := h.linked

variable {calls : ι → AuthCall} {i : ι} {l l' : AuthOwn} {dev : DeviceId} {u : ℕ}

/-- The session may link `u`: it has created the user, or it has locked the device of a user that
has no identity. -/
structure Claim (l : AuthOwn) (dev : DeviceId) (u : ℕ) : Prop where
  free : ¬l.db.Owned u
  held : .insertUser u ∈ l.log ∨
    AuthLock.device dev ∈ l.log.flatMap AuthOp.locks ∧ (u, dev) ∈ l.db.pairs

theorem Claim.write (h : Claim l dev u) (ops : List AuthOp) : Claim (l.write ops) dev u := by
  refine ⟨h.free, h.held.imp (List.mem_append_left _) fun ⟨hlock, hpair⟩ => ⟨?_, hpair⟩⟩
  show _ ∈ (l.log ++ ops).flatMap AuthOp.locks
  rw [List.flatMap_append]
  exact List.mem_append_left _ hlock

/-- The open transaction of a session that signs in on the device `dev`. -/
structure Txn (l : AuthOwn) (dev : DeviceId) : Prop where
  users : ∀ u, .insertUser u ∈ l.log → u ∉ l.db.users ∧ u < l.gen.1
  devices : newDevices l.log = [] ∨
    ∃ row, newDevices l.log = [row] ∧ row.deviceId = dev ∧ l.db.deviceUser dev = none
  locks : ∀ dev', AuthLock.device dev' ∈ l.log.flatMap AuthOp.locks → dev' = dev
  identities : newIdentities l.log = [] ∨ ∃ row, newIdentities l.log = [row] ∧
    row.subject ∉ l.db.identities.map AuthIdentity.subject ∧ Claim l dev row.userId

/-- No other session links a user that this session has a claim on. -/
theorem Claim.stable : Protocol.Stable (linking calls) i fun l => Claim l dev u ∧
    ∀ u, .insertUser u ∈ l.log → u ∉ l.db.users := by
  rintro l l' hinv ⟨hclaim, husers⟩ hr
  cases hr with
  | gen => exact ⟨⟨hclaim.free, hclaim.held⟩, husers⟩
  | @commit j log hj hc hm =>
    have hnew : ∀ u, .insertUser u ∈ l.log → u ∉ (authStore.view log l.db).users := by
      intro u hu hmem
      rw [users_view, List.mem_append] at hmem
      obtain hmem | hmem := hmem
      · exact husers u hu hmem
      · -- both would hold the row of the user
        refine hc (.user u) (List.mem_flatMap.2 ⟨_, hu, by simp [AuthOp.locks]⟩) ?_
        exact List.mem_flatMap.2 ⟨_, mem_newUsers.1 hmem, by simp [AuthOp.locks]⟩
    refine ⟨⟨fun howned => ?_, ?_⟩, hnew⟩
    · obtain hnone | ⟨dev', hlock, hpair⟩ := hm.owned u hclaim.free howned
      · obtain hins | ⟨-, hpair⟩ := hclaim.held
        · obtain ⟨r, hr, rfl⟩ := howned
          exact hnew _ hins (hm.linked.identityUser r hr)
        · exact hnone (hinv.pairUser _ hpair)
      · obtain hins | ⟨hlock', hpair'⟩ := hclaim.held
        · exact husers u hins (hinv.pairUser _ hpair)
        · obtain rfl := hinv.pairs u hclaim.free dev' dev hpair hpair'
          exact hc _ hlock' hlock
    · refine hclaim.held.imp_right (And.imp_right fun hpair => ?_)
      rw [pairs_view]
      exact List.mem_append_left _ hpair

/-- What the open transaction has locked, the others leave as it is. -/
theorem Txn.stable : Protocol.Stable (linking calls) i fun l => Txn l dev := by
  intro l l' hinv h hr
  have hold : ∀ u, .insertUser u ∈ l.log → u ∉ l.db.users := fun u hu => (h.users u hu).1
  cases hr with
  | gen hg =>
    exact ⟨fun u hu => ⟨hold u hu, lt_of_lt_of_le (h.users u hu).2 hg.1⟩, h.devices, h.locks,
      h.identities.imp_right (Exists.imp fun _ hrow =>
        ⟨hrow.1, hrow.2.1, hrow.2.2.free, hrow.2.2.held⟩)⟩
  | @commit j log hj hc hm =>
    have hrely : (linking calls).Rely i l ⟨l.gen, authStore.view log l.db, l.log, l.mem, l.done⟩ :=
      .commit hj hc hm
    refine ⟨fun u hu => ⟨?_, (h.users u hu).2⟩, ?_, h.locks, ?_⟩
    · intro hmem
      rw [users_view, List.mem_append] at hmem
      obtain hmem | hmem := hmem
      · exact hold u hu hmem
      · refine hc (.user u) (List.mem_flatMap.2 ⟨_, hu, by simp [AuthOp.locks]⟩) ?_
        exact List.mem_flatMap.2 ⟨_, mem_newUsers.1 hmem, by simp [AuthOp.locks]⟩
    · refine h.devices.imp_right ?_
      rintro ⟨row, hrow, hdev, hnone⟩
      refine ⟨row, hrow, hdev, ?_⟩
      have hins : .insertDevice row ∈ l.log := mem_newDevices.1 (by simp [hrow])
      have hlock : AuthLock.device dev ∈ l.log.flatMap AuthOp.locks :=
        List.mem_flatMap.2 ⟨_, hins, by simp [AuthOp.locks, hdev]⟩
      show (authStore.view log l.db).deviceUser dev = none
      rw [deviceUser_view, onDevice_frame log (hc _ hlock), hnone]
    · refine h.identities.imp_right ?_
      rintro ⟨row, hrow, hsub, hclaim⟩
      refine ⟨row, hrow, ?_, (Claim.stable _ _ hinv ⟨hclaim, hold⟩ hrely).1⟩
      have hins : .insertIdentity row ∈ l.log := mem_newIdentities.1 (by simp [hrow])
      have hlock : AuthLock.subject row.subject ∈ l.log.flatMap AuthOp.locks :=
        List.mem_flatMap.2 ⟨_, hins, by simp [AuthOp.locks]⟩
      show row.subject ∉ (authStore.view log l.db).identities.map AuthIdentity.subject
      rw [identities_view, List.map_append, List.mem_append, not_or]
      refine ⟨hsub, fun hmem => hc _ hlock ?_⟩
      obtain ⟨row', hrow', hsub'⟩ := List.mem_map.1 hmem
      exact List.mem_flatMap.2 ⟨_, mem_newIdentities.1 hrow', by simp [AuthOp.locks, hsub']⟩

theorem Txn.relies (h : Txn l dev) (hinv : Linked l.gen l.db)
    (he : (linking calls).Relies i l l') : Txn l' dev :=
  Protocol.Stable.relies Txn.stable hinv h he

theorem Claim.relies (h : Claim l dev u) (ht : Txn l dev) (hinv : Linked l.gen l.db)
    (he : (linking calls).Relies i l l') : Claim l' dev u :=
  (Protocol.Stable.relies Claim.stable hinv ⟨h, fun u hu => (ht.users u hu).1⟩ he).1

/-- What others add stays added. -/
theorem relies_pairs (he : (linking calls).Relies i l l') {p : ℕ × DeviceId}
    (hp : p ∈ l.db.pairs) : p ∈ l'.db.pairs := by
  induction he with
  | refl => exact hp
  | tail _ hs ih =>
    cases hs with
    | gen => exact ih
    | commit =>
      rw [pairs_view]
      exact List.mem_append_left _ ih

theorem relies_identities (he : (linking calls).Relies i l l') {r : AuthIdentity}
    (hr : r ∈ l.db.identities) : r ∈ l'.db.identities := by
  induction he with
  | refl => exact hr
  | tail _ hs ih =>
    cases hs with
    | gen => exact ih
    | commit =>
      rw [identities_view]
      exact List.mem_append_left _ ih

/-- The others keep away from a device that this session has locked. -/
theorem relies_device (he : (linking calls).Relies i l l')
    (hlock : AuthLock.device dev ∈ l.log.flatMap AuthOp.locks) :
    l'.db.deviceUser dev = l.db.deviceUser dev := by
  induction he with
  | refl => rfl
  | @tail l₁ l₂ hs hstep ih =>
    cases hstep with
    | gen => exact ih
    | commit hj hc hm =>
      rw [deviceUser_view, onDevice_frame, ih]
      refine hc _ ?_
      rw [(Protocol.Relies.own hs).1]
      exact hlock

/-- A device stays bound. -/
theorem onDevice_isSome (log : List AuthOp) {x : Option ℕ} (h : x.isSome) :
    (onDevice log dev x).isSome := by
  induction log generalizing x with
  | nil => exact h
  | cons o log ih =>
    refine ih ?_
    obtain ⟨u, rfl⟩ := Option.isSome_iff_exists.1 h
    cases o with
    | insertDevice row => simp only [AuthOp.onDevice]; split <;> simp
    | setDeviceUser dev' v => simp only [AuthOp.onDevice]; split <;> simp
    | insertUser => rfl
    | touchDevice => rfl
    | insertIdentity => rfl
    | insertToken => rfl
    | markUsed => rfl
    | revoke => rfl

theorem relies_bound (he : (linking calls).Relies i l l') (h : (l.db.deviceUser dev).isSome) :
    (l'.db.deviceUser dev).isSome := by
  induction he with
  | refl => exact h
  | tail _ hs ih =>
    cases hs with
    | gen => exact ih
    | commit =>
      rw [deviceUser_view]
      exact onDevice_isSome _ ih

theorem relies_owned (he : (linking calls).Relies i l l') (h : l.db.Owned u) : l'.db.Owned u := by
  obtain ⟨r, hr, hu⟩ := h
  exact ⟨r, relies_identities he hr, hu⟩

theorem relies_users (he : (linking calls).Relies i l l') (h : u ∈ l.db.users) :
    u ∈ l'.db.users := by
  induction he with
  | refl => exact h
  | tail _ hs ih =>
    cases hs with
    | gen => exact ih
    | commit =>
      rw [users_view]
      exact List.mem_append_left _ ih

/-- A device that is bound to a user with an identity stays so. -/
theorem relies_device_owned (he : (linking calls).Relies i l l')
    (h : ∀ v, l.db.deviceUser dev = some v → l.db.Owned v) (hsome : (l.db.deviceUser dev).isSome) :
    ∀ v, l'.db.deviceUser dev = some v → l'.db.Owned v := by
  induction he with
  | refl => exact h
  | @tail l₁ l₂ hs hstep ih =>
    obtain ⟨v, hv⟩ := Option.isSome_iff_exists.1 (relies_bound hs hsome)
    cases hstep with
    | gen => exact ih
    | commit _ _ hm =>
      intro w hw
      obtain rfl | howned := hm.device dev v w hv hw
      · rw [owned_view]
        exact .inl (ih w hv)
      · exact howned

/-- The identities that the session sees. -/
theorem view_identities (he : (linking calls).Relies i l l') {r : AuthIdentity}
    (hr : r ∈ (l.view authStore).identities) : r ∈ (l'.view authStore).identities := by
  unfold Own.view at hr ⊢
  rw [identities_view] at hr ⊢
  rw [he.own.1]
  exact (List.mem_append.1 hr).elim (fun h => List.mem_append_left _ (relies_identities he h))
    (List.mem_append_right _)

/-- The state of the transaction before and after the insert of a token of `u` for the device. -/
structure Final (l : AuthOwn) (dev : DeviceId) (u : ℕ) : Prop where
  txn : Txn l dev
  token : ∀ row ∈ inserted l.log, row.pair = (u, dev)
  /-- The user has a token for the device, or is new, or has an identity. -/
  user : (u, dev) ∈ l.db.pairs ∨ .insertUser u ∈ l.log ∨ (l.view authStore).Owned u
  known : u ∈ l.db.users ∨ .insertUser u ∈ l.log
  /-- The device keeps its user, or is locked and goes to `u`. -/
  device : (∀ x, onDevice l.log dev x = x) ∨ AuthLock.device dev ∈ l.log.flatMap AuthOp.locks ∧
    onDevice l.log dev (l.db.deviceUser dev) = some u ∧
    (l.db.deviceUser dev = none ∨ (l.view authStore).Owned u)

theorem Final.relies (h : Final l dev u) (hinv : Linked l.gen l.db)
    (he : (linking calls).Relies i l l') : Final l' dev u := by
  have hlog : l'.log = l.log := he.own.1
  have howned : (l.view authStore).Owned u → (l'.view authStore).Owned u :=
    fun ⟨r, hr, hu⟩ => ⟨r, view_identities he hr, hu⟩
  refine ⟨h.txn.relies hinv he, by rw [hlog]; exact h.token, ?_, ?_, ?_⟩
  · rw [hlog]
    exact h.user.imp (relies_pairs he) (Or.imp_right howned)
  · rw [hlog]
    exact h.known.imp_left (relies_users he)
  · rw [hlog]
    refine h.device.imp_right fun ⟨hlock, hu, hfree⟩ => ⟨hlock, ?_, ?_⟩
    · rw [relies_device he hlock]
      exact hu
    · rw [relies_device he hlock]
      exact hfree.imp_right howned

/-- A transaction that has inserted its token may be committed. -/
theorem Final.links (h : Final l dev u) (hinv : Linked l.gen l.db)
    (hpair : (u, dev) ∈ (l.view authStore).pairs) : Links l.gen l.db l.log := by
  have hdevice : ∀ dev' x, (l.view authStore).deviceUser dev' = some x →
      l.db.deviceUser dev' = some x ∨ dev' = dev ∧ x = u ∧
        (l.db.deviceUser dev = none ∨ (l.view authStore).Owned u) := by
    intro dev' x hx
    rw [Own.view, deviceUser_view] at hx
    by_cases hlock : AuthLock.device dev' ∈ l.log.flatMap AuthOp.locks
    · obtain rfl := h.txn.locks dev' hlock
      obtain hkeep | ⟨-, hu, hfree⟩ := h.device
      · exact .inl ((hkeep _).symm.trans hx)
      · exact .inr ⟨rfl, Option.some.inj (hx.symm.trans hu), hfree⟩
    · rw [onDevice_frame _ hlock] at hx
      exact .inl hx
  have hpairs : ∀ p ∈ (l.view authStore).pairs, p ∈ l.db.pairs ∨ p = (u, dev) := by
    intro p hp
    rw [Own.view, pairs_view, List.mem_append] at hp
    refine hp.imp_right fun hp => ?_
    obtain ⟨row, hrow, rfl⟩ := List.mem_map.1 hp
    exact h.token row hrow
  have hclaim : ∀ row ∈ newIdentities l.log, Claim l dev row.userId ∧
      row.subject ∉ l.db.identities.map AuthIdentity.subject := by
    intro row hrow
    obtain hnil | ⟨row', hone, hsub, hclaim⟩ := h.txn.identities
    · simp [hnil] at hrow
    · obtain rfl : row = row' := by simpa [hone] using hrow
      exact ⟨hclaim, hsub⟩
  refine ⟨⟨?_, ?_, ?_, ?_, ?_, ?_, ?_, ?_⟩, ?_, ?_⟩
  · rw [identities_view, List.map_append]
    obtain hnil | ⟨row, hone, hsub, -⟩ := h.txn.identities
    · simpa [hnil] using hinv.subjects
    · rw [hone]
      exact hinv.subjects.append (List.nodup_singleton _) (by simpa using hsub)
  · rw [identities_view, List.map_append]
    obtain hnil | ⟨row, hone, -, hclaim⟩ := h.txn.identities
    · simpa [hnil] using hinv.owners
    · rw [hone]
      refine hinv.owners.append (List.nodup_singleton _) ?_
      have hfree : ∀ r ∈ l.db.identities, r.userId ≠ row.userId :=
        fun r hr heq => hclaim.free ⟨r, hr, heq⟩
      simpa using hfree
  · rw [deviceIds_view]
    obtain hnil | ⟨row, hone, hdev, hnone⟩ := h.txn.devices
    · simpa [hnil] using hinv.devices
    · rw [hone]
      refine hinv.devices.append (List.nodup_singleton _) ?_
      have hfree : ∀ r ∈ l.db.devices, r.deviceId ≠ row.deviceId := by
        rw [hdev]
        exact AuthDb.deviceUser_none hnone
      simpa using hfree
  · intro v hv
    rw [users_view, List.mem_append] at hv
    exact hv.elim (hinv.fresh v) fun hv => (h.txn.users v (mem_newUsers.1 hv)).2
  · intro r hr
    rw [identities_view, List.mem_append] at hr
    rw [users_view, List.mem_append]
    obtain hr | hr := hr
    · exact .inl (hinv.identityUser r hr)
    · exact (hclaim r hr).1.held.elim (fun h => .inr (mem_newUsers.2 h))
        fun h => .inl (hinv.pairUser _ h.2)
  · intro p hp
    rw [users_view, List.mem_append]
    obtain hp | rfl := hpairs p hp
    · exact .inl (hinv.pairUser p hp)
    · exact h.known.imp_right mem_newUsers.2
  · intro dev' x hx
    obtain hx | ⟨rfl, rfl, -⟩ := hdevice dev' x hx
    · rw [pairs_view]
      exact List.mem_append_left _ (hinv.devicePair dev' x hx)
    · exact hpair
  · -- a user without an identity has got its tokens for one device
    intro v hv dev₁ dev₂ h₁ h₂
    have hvdb : ¬l.db.Owned v := fun h => hv ((owned_view ..).2 (.inl h))
    have hmix : ∀ dev', (u, dev') ∈ l.db.pairs → ¬(l.view authStore).Owned u →
        ¬l.db.Owned u → dev' = dev := by
      intro dev' hp hview hdb
      obtain hu | hu | hu := h.user
      · exact hinv.pairs u hdb dev' dev hp hu
      · exact absurd (hinv.pairUser _ hp) (h.txn.users u hu).1
      · exact absurd hu hview
    obtain h₁ | h₁ := hpairs _ h₁
    · obtain h₂ | h₂ := hpairs _ h₂
      · exact hinv.pairs v hvdb dev₁ dev₂ h₁ h₂
      · obtain ⟨rfl, rfl⟩ := Prod.mk.inj h₂
        exact hmix dev₁ h₁ hv hvdb
    · obtain ⟨rfl, rfl⟩ := Prod.mk.inj h₁
      obtain h₂ | h₂ := hpairs _ h₂
      · exact (hmix dev₂ h₂ hv hvdb).symm
      · exact (Prod.mk.inj h₂).2.symm
  · intro v hv hown
    obtain hown | ⟨row, hrow, rfl⟩ := (owned_view ..).1 hown
    · exact absurd hown hv
    · exact (hclaim row hrow).1.held.imp (fun hnew => (h.txn.users _ hnew).1)
        fun hheld => ⟨dev, hheld⟩
  · intro dev' v w hv hw
    obtain hw | ⟨rfl, rfl, hnone | hown⟩ := hdevice dev' w hw
    · exact .inl (Option.some.inj (hw.symm.trans hv))
    · simp [hnone] at hv
    · exact .inr hown

/-! ## The programs -/

/-- What `_find_or_create_identity` leaves for the user `u` that it returns. -/
structure Resolved (c : AuthCall) (l : AuthOwn) (dev : DeviceId) (u : ℕ) : Prop where
  txn : Txn l dev
  noToken : inserted l.log = []
  noIdentity : newIdentities l.log = []
  /-- The row of the device was found and locked, or is the session's own, or it has appeared
  in between. -/
  row : ((u, dev) ∈ l.db.pairs ∧ AuthLock.device dev ∈ l.log.flatMap AuthOp.locks ∧
      ∀ x, onDevice l.log dev x = x) ∨
    (.insertUser u ∈ l.log ∧ AuthLock.device dev ∈ l.log.flatMap AuthOp.locks ∧
      l.db.deviceUser dev = none ∧ onDevice l.log dev none = some u) ∨
    ((u, dev) ∈ l.db.pairs ∧ (∀ x, onDevice l.log dev x = x) ∧
      ∀ verified d, c = .apple verified d → l.db.Owned u)

/-- A transaction that has not written. -/
theorem Txn.of_nil (h : l.log = []) : Txn l dev := by
  obtain ⟨g, d, log, m, done⟩ := l
  obtain rfl : log = [] := h
  exact ⟨nofun, .inl rfl, nofun, .inl rfl⟩

/-- The rule for the creation of a user. -/
theorem rg_insertUser {α : Type} {Q : Except AuthError α → AuthOwn → Prop} {k : ℕ → AuthProg α}
    (h : ∀ l₁ u, (linking calls).Relies i l l₁ → Linked l₁.gen l₁.db → u ∉ l₁.db.users →
      u < l₁.gen.1 → (linking calls).rg i Q (k u) (l₁.write [.insertUser u])) :
    (linking calls).rg i Q (.act (.stmt .insertUser) k) l := by
  refine rg_authStmt fun l₁ he hi _ => ?_
  have hle : l₁.gen ≤ (l₁.gen.1 + 1, l₁.gen.2) := ⟨Nat.le_succ _, le_refl _⟩
  exact h ⟨(l₁.gen.1 + 1, l₁.gen.2), l₁.db, l₁.log, l₁.mem, l₁.done⟩ l₁.gen.1
    (he.tail (.gen hle)) (Linked.mono hle hi) (fun hmem => lt_irrefl _ (Linked.fresh hi _ hmem))
    (Nat.lt_succ_self _)

/-- Creating a user. -/
theorem Txn.insertUser (h : Txn l dev) (hnew : u ∉ l.db.users) (hu : u < l.gen.1) :
    Txn (l.write [.insertUser u]) dev := by
  refine ⟨fun v hv => ?_, ?_, fun dev' hl => ?_, ?_⟩
  · obtain hv | hv := List.mem_append.1 hv
    · exact h.users v hv
    · obtain rfl : v = u := by simpa using hv
      exact ⟨hnew, hu⟩
  · show newDevices (l.log ++ _) = [] ∨ ∃ row, newDevices (l.log ++ _) = [row] ∧ _
    rw [newDevices_append, show newDevices [AuthOp.insertUser u] = [] from rfl, List.append_nil]
    exact h.devices
  · refine h.locks dev' ?_
    simpa [Own.write, AuthOp.locks] using hl
  · show newIdentities (l.log ++ _) = [] ∨ ∃ row, newIdentities (l.log ++ _) = [row] ∧ _
    rw [newIdentities_append, show newIdentities [AuthOp.insertUser u] = [] from rfl,
      List.append_nil]
    exact h.identities.imp_right (Exists.imp fun _ hrow => ⟨hrow.1, hrow.2.1, hrow.2.2.write _⟩)

/-- The view of a session that has written no device row. -/
theorem view_deviceUser (hkeep : ∀ x, onDevice l.log dev x = x) :
    (l.view authStore).deviceUser dev = l.db.deviceUser dev := by
  rw [Own.view, deviceUser_view, hkeep]

theorem Txn.insertDevice {u v : ℕ} (hlog : l.log = [.insertUser u]) (h : Txn l dev)
    (hnone : l.db.deviceUser dev = none) : Txn (l.write [.insertDevice ⟨dev, v⟩]) dev := by
  have hnew : l.log ++ [.insertDevice ⟨dev, v⟩] = [.insertUser u, .insertDevice ⟨dev, v⟩] := by
    rw [hlog]
    rfl
  refine ⟨fun w hw => ?_, .inr ⟨⟨dev, v⟩, ?_, rfl, hnone⟩, fun dev' hl => ?_, .inl ?_⟩
  · refine h.users w ?_
    simpa [Own.write, hlog] using hw
  · show newDevices (l.log ++ _) = _
    rw [hnew]
    rfl
  · simpa [Own.write, hlog, AuthOp.locks] using hl
  · show newIdentities (l.log ++ _) = _
    rw [hnew]
    rfl

/-- `_find_or_create_identity`. -/
theorem findOrCreateIdentity_rg (hlog : l.log = []) :
    (linking calls).rg i (fun o l' => ∀ u, o = .ok u → Resolved (calls i) l' dev u)
      (findOrCreateIdentity dev) l := by
  simp only [findOrCreateIdentity, selectDevice, touchDevice, insertDevice, TxProg.stmt,
    bind_eq, pure_eq, throw_eq, act_bind, ret_bind]
  refine rg_read (fun _ _ _ => rfl) fun l₁ he₁ hi₁ _ => ?_
  have hlog₁ : l₁.log = [] := he₁.own.1.trans hlog
  have hview₁ : (l₁.view authStore).deviceUser dev = l₁.db.deviceUser dev :=
    view_deviceUser fun x => by rw [hlog₁]; rfl
  simp only [AuthStmt.run, hview₁]
  cases hdev : l₁.db.deviceUser dev with
  | some u =>
    refine rg_write (fun _ _ _ => rfl) fun l₂ he₂ hi₂ _ => Protocol.rg_ret fun l₃ he₃ hi₃ => ?_
    rintro v hv
    obtain rfl := Except.ok.inj hv
    have hlog₂ : l₂.log = [] := he₂.own.1.trans hlog₁
    have hsome : ((l₂.view authStore).deviceUser dev).isSome := by
      rw [view_deviceUser fun x => by rw [hlog₂]; rfl]
      exact relies_bound he₂ (by simp [hdev])
    have hlog₃ : l₃.log = [.touchDevice dev] := by
      refine he₃.own.1.trans ?_
      simp [Own.write, AuthStmt.run, hsome, hlog₂]
    have hpair : (u, dev) ∈ l₃.db.pairs :=
      relies_pairs he₃ (relies_pairs he₂ (Linked.devicePair hi₁ dev u hdev))
    refine ⟨⟨?_, .inl ?_, ?_, .inl ?_⟩, ?_, ?_, .inl ⟨hpair, ?_, ?_⟩⟩
    all_goals simp [hlog₃, newDevices, newIdentities, inserted, AuthOp.locks, onDevice,
      AuthOp.onDevice]
  | none =>
    refine rg_insertUser fun l₂ u he₂ hi₂ hnew hu => ?_
    have hlog₂ : l₂.log = [] := he₂.own.1.trans hlog₁
    have htxn₂ : Txn (l₂.write [.insertUser u]) dev := (Txn.of_nil hlog₂).insertUser hnew hu
    refine rg_write (fun t g d => by simp only [AuthStmt.run]) fun l₃ he₃ hi₃ htest => ?_
    have htxn₃ : Txn l₃ dev := htxn₂.relies hi₂ he₃
    have hlog₃ : l₃.log = [.insertUser u] := by
      refine he₃.own.1.trans ?_
      simp [Own.write, hlog₂]
    have hview₃ : (l₃.view authStore).deviceUser dev = l₃.db.deviceUser dev :=
      view_deviceUser fun x => by rw [hlog₃]; rfl
    simp only [AuthStmt.run, hview₃]
    cases hdev₃ : l₃.db.deviceUser dev with
    | some v =>
      -- the row has appeared since the session looked: it is not locked
      have hmet : ∀ verified d, calls i = .apple verified d → ∀ v, l₃.db.deviceUser dev = some v →
          l₃.db.Owned v := by
        intro verified d hc v hv
        have htest : MeetsOwner (calls i) (l₃.view authStore) (.stmt (.insertDevice u dev)) := htest
        rw [hc] at htest
        obtain hown | ⟨r, hr, -⟩ := (owned_view ..).1 (htest v (hview₃.trans hv))
        · exact hown
        · simp [hlog₃, newIdentities] at hr
      simp only [Option.isSome_some, if_true, Own.write_nil]
      refine rg_read (fun _ _ _ => rfl) fun l₄ he₄ hi₄ _ => ?_
      have hlog₄ : l₄.log = [.insertUser u] := he₄.own.1.trans hlog₃
      have hview₄ : (l₄.view authStore).deviceUser dev = l₄.db.deviceUser dev :=
        view_deviceUser fun x => by rw [hlog₄]; rfl
      simp only [AuthStmt.run, hview₄]
      cases hdev₄ : l₄.db.deviceUser dev with
      | none => exact Protocol.rg_raise fun _ _ _ _ h => by cases h
      | some w =>
        refine Protocol.rg_ret fun l₅ he₅ hi₅ => ?_
        rintro x hx
        obtain rfl := Except.ok.inj hx
        have hlog₅ : l₅.log = [.insertUser u] := he₅.own.1.trans hlog₄
        have hpair : (w, dev) ∈ l₅.db.pairs := relies_pairs he₅ (Linked.devicePair hi₄ dev w hdev₄)
        refine ⟨(htxn₃.relies hi₃ he₄).relies hi₄ he₅, ?_, ?_, .inr (.inr ⟨hpair, ?_,
          fun verified d hc => ?_⟩)⟩
        · simp [hlog₅, inserted]
        · simp [hlog₅, newIdentities]
        · simp [hlog₅, onDevice, AuthOp.onDevice]
        · refine relies_owned he₅ (relies_device_owned he₄ (hmet verified d hc) ?_ w hdev₄)
          simp [hdev₃]
    | none =>
      simp only [Option.isSome_none, Bool.false_eq_true, if_false]
      have htxn₄ : Txn (l₃.write [.insertDevice ⟨dev, u⟩]) dev := .insertDevice hlog₃ htxn₃ hdev₃
      refine rg_read (fun _ _ _ => rfl) fun l₄ he₄ hi₄ _ => ?_
      have hlog₄ : l₄.log = [.insertUser u, .insertDevice ⟨dev, u⟩] := by
        refine he₄.own.1.trans ?_
        simp [Own.write, hlog₃]
      have hlock : AuthLock.device dev ∈ l₄.log.flatMap AuthOp.locks := by
        simp [hlog₄, AuthOp.locks]
      have hnone₄ : l₄.db.deviceUser dev = none := by
        rw [relies_device he₄ (by simp [Own.write, hlog₃, AuthOp.locks])]
        exact hdev₃
      have hview₄ : (l₄.view authStore).deviceUser dev = some u := by
        rw [Own.view, deviceUser_view, hlog₄, hnone₄]
        simp [onDevice, AuthOp.onDevice]
      simp only [AuthStmt.run, hview₄]
      refine Protocol.rg_ret fun l₅ he₅ hi₅ => ?_
      rintro x hx
      obtain rfl := Except.ok.inj hx
      have hlog₅ : l₅.log = [.insertUser u, .insertDevice ⟨dev, u⟩] := he₅.own.1.trans hlog₄
      have hnone₅ : l₅.db.deviceUser dev = none := by
        rw [relies_device he₅ hlock]
        exact hnone₄
      refine ⟨(htxn₄.relies hi₃ he₄).relies hi₄ he₅, ?_, ?_, .inr (.inl ⟨?_, ?_, hnone₅, ?_⟩)⟩
      all_goals simp [hlog₅, newIdentities, inserted, AuthOp.locks, onDevice, AuthOp.onDevice]

/-- The transaction of a first sign-in that is about to link the user `x`. -/
structure Linkable (l : AuthOwn) (dev : DeviceId) (x : ℕ) : Prop where
  txn : Txn l dev
  noToken : inserted l.log = []
  noIdentity : newIdentities l.log = []
  claim : Claim l dev x

/-- The transaction of a sign-in after the user of the subject is known. -/
structure Mapped (l : AuthOwn) (dev : DeviceId) (sub : String) (w : ℕ) : Prop where
  txn : Txn l dev
  noToken : inserted l.log = []
  row : ∃ r ∈ (l.view authStore).identities, r.subject = sub ∧ r.userId = w
  known : w ∈ l.db.users ∨ .insertUser w ∈ l.log

theorem Resolved.relies {c : AuthCall} (h : Resolved c l dev u) (hinv : Linked l.gen l.db)
    (he : (linking calls).Relies i l l') : Resolved c l' dev u := by
  have hlog : l'.log = l.log := he.own.1
  refine ⟨h.txn.relies hinv he, by rw [hlog]; exact h.noToken, by rw [hlog]; exact h.noIdentity, ?_⟩
  rw [hlog]
  refine h.row.imp (fun ⟨hp, hr⟩ => ⟨relies_pairs he hp, hr⟩) (Or.imp ?_ ?_)
  · rintro ⟨hu, hlock, hnone, hmap⟩
    exact ⟨hu, hlock, by rw [relies_device he hlock]; exact hnone, hmap⟩
  · rintro ⟨hp, hkeep, hown⟩
    exact ⟨relies_pairs he hp, hkeep, fun v d hc => relies_owned he (hown v d hc)⟩

theorem Mapped.relies {sub : String} {w : ℕ} (h : Mapped l dev sub w) (hinv : Linked l.gen l.db)
    (he : (linking calls).Relies i l l') : Mapped l' dev sub w := by
  obtain ⟨r, hr, hsub⟩ := h.row
  refine ⟨h.txn.relies hinv he, by rw [he.own.1]; exact h.noToken,
    ⟨r, view_identities he hr, hsub⟩, ?_⟩
  rw [he.own.1]
  exact h.known.imp_left (relies_users he)

/-- The choice of the user to link. -/
theorem linkTarget_rg {verified : Except AuthError VerifiedAppleIdentity} {d : Option DeviceId}
    (hc : calls i = .apple verified d) (h : Resolved (calls i) l dev u)
    (hinv : Linked l.gen l.db) :
    (linking calls).rg i (fun o l' => ∀ x, o = .ok x → Linkable l' dev x) (linkTarget u) l := by
  simp only [linkTarget, hasApple, TxProg.stmt, bind_eq, pure_eq, act_bind, ret_bind]
  refine rg_read (fun _ _ _ => rfl) fun l₁ he₁ hi₁ _ => ?_
  have h₁ := h.relies hinv he₁
  simp only [AuthStmt.run]
  cases hown : (l₁.view authStore).hasApple u with
  | false =>
    have hfree : ¬l₁.db.Owned u := by
      intro hu
      have : (l₁.view authStore).hasApple u = true :=
        AuthDb.hasApple_iff.2 ((owned_view ..).2 (.inl hu))
      rw [hown] at this
      cases this
    have hclaim : Claim l₁ dev u := by
      refine ⟨hfree, ?_⟩
      obtain ⟨hp, hlock, -⟩ | ⟨hu, -⟩ | ⟨-, -, hmet⟩ := h₁.row
      · exact .inr ⟨hlock, hp⟩
      · exact .inl hu
      · exact absurd (hmet verified d hc) hfree
    refine Protocol.rg_ret fun l₂ he₂ hi₂ => ?_
    rintro x hx
    obtain rfl := Except.ok.inj hx
    exact ⟨h₁.txn.relies hi₁ he₂, by rw [he₂.own.1]; exact h₁.noToken,
      by rw [he₂.own.1]; exact h₁.noIdentity, hclaim.relies h₁.txn hi₁ he₂⟩
  | true =>
    refine rg_insertUser fun l₂ v he₂ hi₂ hnew hv => Protocol.rg_ret fun l₃ he₃ hi₃ => ?_
    rintro x hx
    obtain rfl := Except.ok.inj hx
    have h₂ := h₁.relies hi₁ he₂
    have htxn : Txn (l₂.write [.insertUser v]) dev := h₂.txn.insertUser hnew hv
    have hclaim : Claim (l₂.write [.insertUser v]) dev v := by
      refine ⟨?_, .inl (List.mem_append_right _ (by simp))⟩
      rintro ⟨r, hr, hu⟩
      refine hnew ?_
      rw [← hu]
      exact Linked.identityUser hi₂ r hr
    refine ⟨htxn.relies hi₂ he₃, ?_, ?_, hclaim.relies htxn hi₂ he₃⟩
    · rw [he₃.own.1]
      show inserted (l₂.log ++ _) = []
      rw [inserted_append, h₂.noToken]
      rfl
    · rw [he₃.own.1]
      show newIdentities (l₂.log ++ _) = []
      rw [newIdentities_append, h₂.noIdentity]
      rfl

/-- The insert of the identity. -/
theorem Linkable.insert {x : ℕ} (h : Linkable l dev x) {sub : String}
    (hnone : (l.view authStore).subjectUser sub = none) (email : Option String) :
    Txn (l.write [.insertIdentity ⟨x, sub, email⟩]) dev := by
  refine ⟨fun v hv => h.txn.users v ?_, ?_, fun dev' hl => h.txn.locks dev' ?_,
    .inr ⟨⟨x, sub, email⟩, ?_, ?_, h.claim.write _⟩⟩
  · simpa [Own.write] using hv
  · show newDevices (l.log ++ _) = [] ∨ ∃ row, newDevices (l.log ++ _) = [row] ∧ _
    rw [newDevices_append, show newDevices [AuthOp.insertIdentity ⟨x, sub, email⟩] = [] from rfl,
      List.append_nil]
    exact h.txn.devices
  · simpa [Own.write, AuthOp.locks] using hl
  · show newIdentities (l.log ++ _) = _
    rw [newIdentities_append, h.noIdentity]
    rfl
  · intro hmem
    obtain ⟨r, hr, hsub⟩ := List.mem_map.1 hmem
    refine AuthDb.subjectUser_none hnone r ?_ hsub
    rw [Own.view, identities_view]
    exact List.mem_append_left _ hr

/-- A user that the session sees an identity of. -/
theorem Txn.known (h : Txn l dev) (hinv : Linked l.gen l.db) {r : AuthIdentity}
    (hr : r ∈ (l.view authStore).identities) : r.userId ∈ l.db.users ∨ .insertUser r.userId ∈ l.log := by
  rw [Own.view, identities_view, List.mem_append] at hr
  obtain hr | hr := hr
  · exact .inl (hinv.identityUser r hr)
  · obtain hnil | ⟨row, hone, -, hclaim⟩ := h.identities
    · simp [hnil] at hr
    · obtain rfl : r = row := by simpa [hone] using hr
      exact hclaim.held.symm.imp_left fun hheld => hinv.pairUser _ hheld.2

/-- `_resolve_apple_user`. -/
theorem resolveAppleUser_rg {verified : Except AuthError VerifiedAppleIdentity}
    {d : Option DeviceId} (hc : calls i = .apple verified d) (sub : String) (email : Option String)
    (hlog : l.log = []) :
    (linking calls).rg i (fun o l' => ∀ w, o = .ok w → Mapped l' dev sub w)
      (resolveAppleUser sub email dev) l := by
  simp only [resolveAppleUser, selectIdentity, insertIdentity, TxProg.stmt, bind_eq, pure_eq,
    throw_eq, act_bind, ret_bind]
  refine rg_read (fun _ _ _ => rfl) fun l₁ he₁ hi₁ _ => ?_
  have hlog₁ : l₁.log = [] := he₁.own.1.trans hlog
  simp only [AuthStmt.run]
  cases hsub : (l₁.view authStore).subjectUser sub with
  | some w =>
    refine Protocol.rg_ret fun l₂ he₂ hi₂ => ?_
    rintro x hx
    obtain rfl := Except.ok.inj hx
    obtain ⟨r, hr, hrsub, rfl⟩ := AuthDb.subjectUser_some hsub
    have htxn : Txn l₁ dev := .of_nil hlog₁
    have : Mapped l₁ dev sub r.userId :=
      ⟨htxn, by rw [hlog₁]; rfl, ⟨r, hr, hrsub, rfl⟩, htxn.known hi₁ hr⟩
    exact this.relies hi₁ he₂
  | none =>
    refine Protocol.rg_bind hi₁ (Protocol.rg_mono (fun o l₂ hi₂ h₂ => ?_)
      (findOrCreateIdentity_rg hlog₁))
    cases o with
    | error e => exact Protocol.rg_raise fun _ _ _ _ h => by cases h
    | ok u =>
      refine Protocol.rg_bind hi₂ (Protocol.rg_mono (fun o l₃ hi₃ h₃ => ?_)
        (linkTarget_rg hc (h₂ u rfl) hi₂))
      cases o with
      | error e => exact Protocol.rg_raise fun _ _ _ _ h => by cases h
      | ok x =>
        have h₃ : Linkable l₃ dev x := h₃ x rfl
        refine rg_write (fun t g d => by simp only [AuthStmt.run]) fun l₄ he₄ hi₄ _ => ?_
        have h₄ : Linkable l₄ dev x := ⟨h₃.txn.relies hi₃ he₄, by rw [he₄.own.1]; exact h₃.noToken,
          by rw [he₄.own.1]; exact h₃.noIdentity, h₃.claim.relies h₃.txn hi₃ he₄⟩
        -- the row is inserted, or a concurrent sign-in of the same subject has inserted it
        have hafter : ∀ ops, ops = (AuthStmt.run l₄.gen.2 l₄.gen.1 (l₄.view authStore)
            (.insertIdentity x sub email)).2.1 →
            Txn (l₄.write ops) dev ∧ inserted (l₄.write ops).log = [] := by
          rintro ops rfl
          simp only [AuthStmt.run]
          cases hsub₄ : (l₄.view authStore).subjectUser sub with
          | some w =>
            simp only [Option.isSome_some, if_true, Own.write_nil]
            exact ⟨h₄.txn, h₄.noToken⟩
          | none =>
            simp only [Option.isSome_none, Bool.false_eq_true, if_false]
            refine ⟨h₄.insert hsub₄ email, ?_⟩
            show inserted (l₄.log ++ _) = []
            rw [inserted_append, h₄.noToken]
            rfl
        obtain ⟨htxn, hnone⟩ := hafter _ rfl
        refine rg_read (fun _ _ _ => rfl) fun l₅ he₅ hi₅ _ => ?_
        have htxn₅ : Txn l₅ dev := htxn.relies hi₄ he₅
        simp only [AuthStmt.run]
        cases hsub₅ : (l₅.view authStore).subjectUser sub with
        | none => exact Protocol.rg_raise fun _ _ _ _ h => by cases h
        | some w =>
          refine Protocol.rg_ret fun l₆ he₆ hi₆ => ?_
          rintro y hy
          obtain rfl := Except.ok.inj hy
          obtain ⟨r, hr, hrsub, rfl⟩ := AuthDb.subjectUser_some hsub₅
          have : Mapped l₅ dev sub r.userId :=
            ⟨htxn₅, by rw [he₅.own.1]; exact hnone, ⟨r, hr, hrsub, rfl⟩, htxn₅.known hi₅ hr⟩
          exact this.relies hi₅ he₆

/-- A device that a log has inserted is bound. -/
theorem onDevice_of_new {log : List AuthOp} {row : AuthDevice} (h : .insertDevice row ∈ log)
    (x : Option ℕ) : (onDevice log row.deviceId x).isSome := by
  obtain ⟨l₁, l₂, rfl⟩ := List.append_of_mem h
  rw [onDevice_append]
  exact onDevice_isSome l₂ (by simp [AuthOp.onDevice])

/-- `_upsert_device`. -/
theorem upsertDevice_rg {sub : String} {w : ℕ} (h : Mapped l dev sub w)
    (hinv : Linked l.gen l.db) {β : Type} {Q : Except AuthError β → AuthOwn → Prop}
    {k : Unit → AuthProg β}
    (hk : ∀ l', Linked l'.gen l'.db → Final l' dev w →
      (∃ r ∈ (l'.view authStore).identities, r.subject = sub ∧ r.userId = w) →
      (linking calls).rg i Q (k ()) l') :
    (linking calls).rg i Q ((upsertDevice dev w).bind k) l := by
  simp only [upsertDevice, TxProg.stmt, act_bind, ret_bind]
  refine rg_write (fun t g d => by simp only [AuthStmt.run]) fun l₁ he₁ hi₁ _ => ?_
  have h₁ := h.relies hinv he₁
  obtain ⟨r, hr, hrsub, hrw⟩ := h₁.row
  simp only [AuthStmt.run]
  have hown : ∀ ops, newIdentities ops = [] →
      ((l₁.write ops).view authStore).identities = (l₁.view authStore).identities := by
    intro ops hops
    show (authStore.view (l₁.log ++ ops) l₁.db).identities = (authStore.view l₁.log l₁.db).identities
    rw [identities_view, identities_view, newIdentities_append, hops, List.append_nil]
  cases hdev : (l₁.view authStore).deviceUser dev with
  | some v =>
    simp only [Option.isSome_some, if_true]
    have hids := hown [.setDeviceUser dev w] rfl
    refine hk _ hi₁ ⟨⟨fun u hu => h₁.txn.users u (by simpa [Own.write] using hu), ?_, fun d hl => ?_,
      ?_⟩, fun row hrow => ?_, .inr (.inr ⟨r, by rw [hids]; exact hr, hrw⟩),
      h₁.known.imp_right (List.mem_append_left _), .inr ⟨?_, ?_, .inr ⟨r, by rw [hids]; exact hr, hrw⟩⟩⟩
      ⟨r, by rw [hids]; exact hr, hrsub, hrw⟩
    · show newDevices (l₁.log ++ _) = [] ∨ ∃ row, newDevices (l₁.log ++ _) = [row] ∧ _
      rw [newDevices_append, show newDevices [AuthOp.setDeviceUser dev w] = [] from rfl,
        List.append_nil]
      exact h₁.txn.devices
    · obtain hl | hl : AuthLock.device d ∈ l₁.log.flatMap AuthOp.locks ∨ d = dev := by
        simpa [Own.write, AuthOp.locks, or_and_right, exists_or] using hl
      · exact h₁.txn.locks d hl
      · exact hl
    · show newIdentities (l₁.log ++ _) = [] ∨ ∃ row, newIdentities (l₁.log ++ _) = [row] ∧ _
      rw [newIdentities_append, show newIdentities [AuthOp.setDeviceUser dev w] = [] from rfl,
        List.append_nil]
      exact h₁.txn.identities.imp_right (Exists.imp fun _ hrow => ⟨hrow.1, hrow.2.1, hrow.2.2.write _⟩)
    · exfalso
      have hrow : row ∈ inserted (l₁.log ++ [.setDeviceUser dev w]) := hrow
      rw [inserted_append, h₁.noToken] at hrow
      cases hrow
    · simp [Own.write, AuthOp.locks]
    · show onDevice (l₁.log ++ _) dev (l₁.db.deviceUser dev) = some w
      rw [Own.view, deviceUser_view] at hdev
      rw [onDevice_append, hdev]
      simp [onDevice, AuthOp.onDevice]
  | none =>
    simp only [Option.isSome_none, Bool.false_eq_true, if_false]
    rw [Own.view, deviceUser_view] at hdev
    have hnone : l₁.db.deviceUser dev = none := by
      by_contra hsome
      have : (onDevice l₁.log dev (l₁.db.deviceUser dev)).isSome :=
        onDevice_isSome l₁.log (Option.isSome_iff_ne_none.2 hsome)
      rw [hdev] at this
      cases this
    have hnil : newDevices l₁.log = [] := by
      obtain hnil | ⟨row, hone, hrow, -⟩ := h₁.txn.devices
      · exact hnil
      · have hmem : .insertDevice row ∈ l₁.log := mem_newDevices.1 (by simp [hone])
        have := onDevice_of_new hmem (l₁.db.deviceUser dev)
        rw [hrow, hdev] at this
        cases this
    have hids := hown [.insertDevice ⟨dev, w⟩] rfl
    refine hk _ hi₁ ⟨⟨fun u hu => h₁.txn.users u (by simpa [Own.write] using hu),
      .inr ⟨⟨dev, w⟩, ?_, rfl, hnone⟩, fun d hl => ?_, ?_⟩, fun row hrow => ?_,
      .inr (.inr ⟨r, by rw [hids]; exact hr, hrw⟩),
      h₁.known.imp_right (List.mem_append_left _), .inr ⟨?_, ?_, .inl hnone⟩⟩
      ⟨r, by rw [hids]; exact hr, hrsub, hrw⟩
    · show newDevices (l₁.log ++ _) = _
      rw [newDevices_append, hnil]
      rfl
    · obtain hl | hl : AuthLock.device d ∈ l₁.log.flatMap AuthOp.locks ∨ d = dev := by
        simpa [Own.write, AuthOp.locks, or_and_right, exists_or] using hl
      · exact h₁.txn.locks d hl
      · exact hl
    · show newIdentities (l₁.log ++ _) = [] ∨ ∃ row, newIdentities (l₁.log ++ _) = [row] ∧ _
      rw [newIdentities_append, show newIdentities [AuthOp.insertDevice ⟨dev, w⟩] = [] from rfl,
        List.append_nil]
      exact h₁.txn.identities.imp_right (Exists.imp fun _ hrow => ⟨hrow.1, hrow.2.1, hrow.2.2.write _⟩)
    · exfalso
      have hrow : row ∈ inserted (l₁.log ++ [.insertDevice ⟨dev, w⟩]) := hrow
      rw [inserted_append, h₁.noToken] at hrow
      cases hrow
    · simp [Own.write, AuthOp.locks]
    · show onDevice (l₁.log ++ _) dev (l₁.db.deviceUser dev) = some w
      rw [onDevice_append, hdev]
      simp [onDevice, AuthOp.onDevice]

/-- What a device sign-in has resolved may be committed with a token. -/
theorem Resolved.final {c : AuthCall} (h : Resolved c l dev u) (hinv : Linked l.gen l.db) :
    Final l dev u := by
  refine ⟨h.txn, by simp [h.noToken], ?_, ?_, ?_⟩
  · obtain ⟨hp, -⟩ | ⟨hu, -⟩ | ⟨hp, -⟩ := h.row
    · exact .inl hp
    · exact .inr (.inl hu)
    · exact .inl hp
  · obtain ⟨hp, -⟩ | ⟨hu, -⟩ | ⟨hp, -⟩ := h.row
    · exact .inl (hinv.pairUser _ hp)
    · exact .inr hu
    · exact .inl (hinv.pairUser _ hp)
  · obtain ⟨-, -, hkeep⟩ | ⟨-, hlock, hnone, hmap⟩ | ⟨-, hkeep, -⟩ := h.row
    · exact .inl hkeep
    · exact .inr ⟨hlock, by rw [hnone]; exact hmap, .inl hnone⟩
    · exact .inl hkeep

/-- The token of the pair is inserted. -/
theorem Final.insert (h : Final l dev u) {row : AuthRefreshToken} (hrow : row.pair = (u, dev)) :
    Final (l.write [.insertToken row]) dev u := by
  have hids : newIdentities (l.log ++ [.insertToken row]) = newIdentities l.log := by
    rw [newIdentities_append, show newIdentities [AuthOp.insertToken row] = [] from rfl,
      List.append_nil]
  have hview : ((l.write [.insertToken row]).view authStore).identities =
      (l.view authStore).identities := by
    show (authStore.view (l.log ++ _) l.db).identities = (authStore.view l.log l.db).identities
    rw [identities_view, identities_view, hids]
  have hown : (l.view authStore).Owned u →
      ((l.write [.insertToken row]).view authStore).Owned u := by
    rintro ⟨r, hr, hu⟩
    exact ⟨r, by rw [hview]; exact hr, hu⟩
  have hdev : ∀ x, onDevice (l.log ++ [.insertToken row]) dev x = onDevice l.log dev x := by
    intro x
    rw [onDevice_append]
    rfl
  refine ⟨⟨fun v hv => h.txn.users v (by simpa [Own.write] using hv), ?_, fun d hl => ?_, ?_⟩,
    fun row' hrow' => ?_, ?_, h.known.imp_right (List.mem_append_left _), ?_⟩
  · show newDevices (l.log ++ _) = [] ∨ ∃ row, newDevices (l.log ++ _) = [row] ∧ _
    rw [newDevices_append, show newDevices [AuthOp.insertToken row] = [] from rfl, List.append_nil]
    exact h.txn.devices
  · exact h.txn.locks d (by simpa [Own.write, AuthOp.locks] using hl)
  · show newIdentities (l.log ++ _) = [] ∨ ∃ row, newIdentities (l.log ++ _) = [row] ∧ _
    rw [hids]
    exact h.txn.identities.imp_right (Exists.imp fun _ hrow => ⟨hrow.1, hrow.2.1, hrow.2.2.write _⟩)
  · have hrow' : row' ∈ inserted (l.log ++ [.insertToken row]) := hrow'
    rw [inserted_append, List.mem_append] at hrow'
    obtain hrow' | hrow' := hrow'
    · exact h.token row' hrow'
    · obtain rfl : row' = row := List.mem_singleton.1 hrow'
      exact hrow
  · exact h.user.imp_right (Or.imp (List.mem_append_left _) hown)
  · refine h.device.imp (fun hkeep x => (hdev x).trans (hkeep x)) ?_
    rintro ⟨hlock, hu, hfree⟩
    refine ⟨?_, ?_, ?_⟩
    · show _ ∈ (l.log ++ _).flatMap AuthOp.locks
      rw [List.flatMap_append]
      exact List.mem_append_left _ hlock
    · exact (hdev _).trans hu
    · exact hfree.imp_right hown

/-- What a sign-in with Apple that succeeds has left. -/
def SignedIn (c : AuthCall) (tokens : IssuedTokens) (l : AuthOwn) : Prop :=
  ∀ identity d, c = .apple (.ok identity) d →
    ∃ r ∈ l.db.identities, r.subject = identity.appleSub ∧ r.userId = tokens.userId

/-- `_issue_pair` and the commit. -/
theorem linkedPair_rg {cfg : AuthSettings} (h : Final l dev u) (hinv : Linked l.gen l.db)
    (hmap : ∀ identity d, calls i = .apple (.ok identity) d →
      ∃ r ∈ (l.view authStore).identities, r.subject = identity.appleSub ∧ r.userId = u) :
    (linking calls).rg i
      (fun o l' => ∀ tokens, o = .ok tokens → l'.log = [] ∧ SignedIn (calls i) tokens l')
      ((issuePair cfg u dev).bind fun tokens => TxProg.commit.bind fun _ => .ret tokens) l := by
  cases hcfg : cfg.configured with
  | false =>
    have hraise : issuePair cfg u dev =
        .raise (.serviceUnavailable "auth issuer is not configured") := by
      simp [issuePair, requireIssuer, hcfg]
    rw [hraise]
    exact Protocol.rg_raise fun _ _ _ _ h => by cases h
  | true =>
    have hret : requireIssuer cfg = .ret () := by simp [requireIssuer, hcfg]
    simp only [issuePair, hret, bind_eq, pure_eq, insertRefreshToken, TxProg.stmt, TxProg.commit,
      act_bind, ret_bind]
    refine rg_authStmt fun l₁ he₁ hi₁ _ => ?_
    have h₁ : Final l₁ dev u := h.relies hinv he₁
    simp only [AuthStmt.run]
    generalize hrow : (⟨l₁.gen.1, u, dev, .sha256 (l₁.gen.1 + 1), l₁.gen.2 + cfg.refreshTtl, none,
      none⟩ : AuthRefreshToken) = row
    have hpair : row.pair = (u, dev) := by rw [← hrow]; rfl
    have hle : l₁.gen ≤ (l₁.gen.1 + 2, l₁.gen.2) := ⟨Nat.le_add_right _ _, le_refl _⟩
    have hstep : (linking calls).Relies i (l₁.write [.insertToken row])
        ⟨(l₁.gen.1 + 2, l₁.gen.2), l₁.db, l₁.log ++ [.insertToken row], (), l₁.done⟩ :=
      .single (.gen (l := l₁.write [.insertToken row]) hle)
    refine Protocol.rg_stable ?_ hstep
    refine Protocol.rg_commit fun l₂ he₂ hi₂ _ => ?_
    have h₂ : Final l₂ dev u := (h₁.insert hpair).relies hi₁ he₂
    have hmem : (u, dev) ∈ (l₂.view authStore).pairs := by
      rw [Own.view, pairs_view, he₂.own.1]
      refine List.mem_append_right _ (List.mem_map.2 ⟨row, ?_, hpair⟩)
      exact mem_inserted.2 (List.mem_append_right _ (by simp))
    refine ⟨h₂.links hi₂ hmem, Protocol.rg_ret fun l₃ he₃ hi₃ => ?_⟩
    rintro tokens htokens
    obtain rfl := Except.ok.inj htokens
    refine ⟨he₃.own.1, fun identity d hc => ?_⟩
    obtain ⟨r, hr, hsub, hu⟩ := hmap identity d hc
    have hr₁ : r ∈ (l₁.view authStore).identities := view_identities he₁ hr
    have hr₁' : r ∈ ((l₁.write [.insertToken row]).view authStore).identities := by
      show r ∈ (authStore.view (l₁.log ++ _) l₁.db).identities
      rw [Own.view, identities_view] at hr₁
      rw [identities_view, newIdentities_append, ← List.append_assoc]
      exact List.mem_append_left _ hr₁
    exact ⟨r, relies_identities he₃ (view_identities he₂ hr₁'), hsub, hu⟩

/-- `device_id or str(uuid.uuid4())` writes nothing. -/
theorem resolveDeviceId_rg (d : Option DeviceId) (hlog : l.log = []) :
    (linking calls).rg i (fun _ l' => l'.log = []) (resolveDeviceId d) l := by
  have hdraw : (linking calls).rg i (fun _ l' => l'.log = []) uuid4 l := by
    refine rg_authStmt fun l₁ he₁ hi₁ _ => Protocol.rg_ret fun l₂ he₂ _ => ?_
    refine he₂.own.1.trans ?_
    show l₁.log ++ [] = []
    rw [List.append_nil, he₁.own.1, hlog]
  cases d with
  | none => exact hdraw
  | some d =>
    show (linking calls).rg i (fun _ l' => l'.log = [])
      (if d = .given "" then uuid4 else pure d : AuthProg DeviceId) l
    split
    · exact hdraw
    · intro l₁ he₁ _
      exact he₁.own.1.trans hlog

variable {cfg : AuthSettings}

theorem registerOrToken_links {d : Option DeviceId} (hc : calls i = .register d)
    (hlog : l.log = []) (hinv : Linked l.gen l.db) :
    (linking calls).rg i
      (fun o l' => ∀ tokens, o = .ok tokens → l'.log = [] ∧ SignedIn (calls i) tokens l')
      (registerOrToken cfg d) l := by
  cases hcfg : cfg.configured with
  | false =>
    have hraise : registerOrToken cfg d =
        .raise (.serviceUnavailable "auth issuer is not configured") := by
      simp [registerOrToken, requireIssuer, hcfg]
    rw [hraise]
    exact Protocol.rg_raise fun _ _ _ _ h => by cases h
  | true =>
    have hret : requireIssuer cfg = .ret () := by simp [requireIssuer, hcfg]
    simp only [registerOrToken, hret, bind_eq, pure_eq, ret_bind]
    refine Protocol.rg_bind hinv (Protocol.rg_mono (fun o l₁ hi₁ hlog₁ => ?_)
      (resolveDeviceId_rg d hlog))
    cases o with
    | error e => exact Protocol.rg_raise fun _ _ _ _ h => by cases h
    | ok dev =>
      refine Protocol.rg_bind hi₁ (Protocol.rg_mono (fun o l₂ hi₂ h₂ => ?_)
        (findOrCreateIdentity_rg hlog₁))
      cases o with
      | error e => exact Protocol.rg_raise fun _ _ _ _ h => by cases h
      | ok u =>
        refine linkedPair_rg ((h₂ u rfl).final hi₂) hi₂ fun identity d' hc' => ?_
        rw [hc] at hc'
        cases hc'

theorem signInWithApple_links {verified : Except AuthError VerifiedAppleIdentity}
    {d : Option DeviceId} (hc : calls i = .apple verified d) (hlog : l.log = [])
    (hinv : Linked l.gen l.db) :
    (linking calls).rg i
      (fun o l' => ∀ tokens, o = .ok tokens → l'.log = [] ∧ SignedIn (calls i) tokens l')
      (signInWithApple cfg verified d) l := by
  cases hcfg : cfg.configured with
  | false =>
    have hraise : signInWithApple cfg verified d =
        .raise (.serviceUnavailable "auth issuer is not configured") := by
      simp [signInWithApple, requireIssuer, hcfg]
    rw [hraise]
    exact Protocol.rg_raise fun _ _ _ _ h => by cases h
  | true =>
    have hret : requireIssuer cfg = .ret () := by simp [requireIssuer, hcfg]
    simp only [signInWithApple, hret, bind_eq, pure_eq, throw_eq, ret_bind]
    cases verified with
    | error e => exact Protocol.rg_raise fun _ _ _ _ h => by cases h
    | ok identity =>
      refine Protocol.rg_bind hinv (Protocol.rg_mono (fun o l₁ hi₁ hlog₁ => ?_)
        (resolveDeviceId_rg d hlog))
      cases o with
      | error e => exact Protocol.rg_raise fun _ _ _ _ h => by cases h
      | ok dev =>
        refine Protocol.rg_bind hi₁ (Protocol.rg_mono (fun o l₂ hi₂ h₂ => ?_)
          (resolveAppleUser_rg hc identity.appleSub identity.email hlog₁))
        cases o with
        | error e => exact Protocol.rg_raise fun _ _ _ _ h => by cases h
        | ok w =>
          refine upsertDevice_rg (h₂ w rfl) hi₂ fun l₃ hi₃ h₃ hrow => ?_
          refine linkedPair_rg h₃ hi₃ fun identity' d' hc' => ?_
          obtain ⟨rfl, -⟩ : identity = identity' ∧ d = d' := by
            simpa using hc.symm.trans hc'
          exact hrow

/-- **A sign-in keeps the protocol.** -/
theorem signIn_links (hc : ∀ tok, calls i ≠ .refresh tok) (hlog : l.log = [])
    (hinv : Linked l.gen l.db) :
    (linking calls).rg i (fun o l' => ∀ tokens, o = .ok tokens → SignedIn (calls i) tokens l')
      ((calls i).serve cfg) l := by
  refine Protocol.rg_sessionScope_of_nil hinv (fun g d hd => ?_) (fun tokens l l' h he => ?_)
    (fun tokens g d m done h => h) ?_
  · exact ⟨hd, fun u h h' => absurd h' h, fun dev v w hv hw => .inl (Option.some.inj (hw.symm.trans hv))⟩
  · intro identity d hcall
    obtain ⟨r, hr, hsub⟩ := h identity d hcall
    exact ⟨r, relies_identities he hr, hsub⟩
  · cases hcall : calls i with
    | register d => rw [← hcall]; exact hcall ▸ registerOrToken_links hcall hlog hinv
    | apple verified d => rw [← hcall]; exact hcall ▸ signInWithApple_links hcall hlog hinv
    | refresh tok => exact absurd hcall (hc tok)

end Identity

/-! ## Pools of sign-ins -/

section Pools

variable {ι : Type} [DecidableEq ι]

theorem Linked.empty : Linked (0, 0) .empty :=
  ⟨.nil, .nil, .nil, nofun, nofun, nofun, nofun, fun _ _ _ _ h => nomatch h⟩

/-- An identity that has been committed stays. -/
theorem ReachesIf.identities {test : ι → AuthDb → TxAct AuthStmt → Prop} {P P' : AuthPool ι}
    (h : P.ReachesIf authStore test P') {r : AuthIdentity} (hr : r ∈ P.db.identities) :
    r ∈ P'.db.identities := by
  induction h with
  | refl => exact hr
  | tail _ hs ih =>
    obtain ⟨i, hs⟩ := hs
    cases hs with
    | act _ _ h =>
      cases h with
      | stmt => exact ih
      | commit =>
        show r ∈ (authStore.view _ _).identities
        rw [identities_view]
        exact List.mem_append_left _ ih
      | rollback => exact ih
    | die => exact ih

/-- **The mapping of identities**, in every run in which a sign-in whose insert of the device meets
a row that was not there before finds a user with an Apple identity: in every committed state a
subject has one user, which it keeps, a user has one subject, a device has one user, and a sign-in
with Apple has returned tokens for the user of its subject. -/
theorem identity_mapping {cfg : AuthSettings} (calls : ι → AuthCall)
    (hcalls : ∀ i tok, calls i ≠ .refresh tok) {P : AuthPool ι}
    (hP : (requests cfg calls).ReachesIf authStore (fun i => MeetsOwner (calls i)) P) :
    (P.db.identities.map AuthIdentity.subject).Nodup ∧
    (∀ P', P.ReachesIf authStore (fun i => MeetsOwner (calls i)) P' →
      ∀ r ∈ P.db.identities, ∀ r' ∈ P'.db.identities, r'.subject = r.subject →
        r'.userId = r.userId) ∧
    (∀ r ∈ P.db.identities, ∀ r' ∈ P.db.identities, r.userId = r'.userId →
      r.subject = r'.subject) ∧
    (P.db.devices.map AuthDevice.deviceId).Nodup ∧
    ∀ i identity d tokens, calls i = .apple (.ok identity) d →
      (P.thr i).prog = some (.ret tokens) →
      ∃ r ∈ P.db.identities, r.subject = identity.appleSub ∧ r.userId = tokens.userId := by
  have hstart : Pool.Keeps (linking calls)
      (fun i o l => ∀ tokens, o = .ok tokens → SignedIn (calls i) tokens l) .empty
      (requests cfg calls) :=
    Pool.begin_keeps Linked.empty fun i => signIn_links (hcalls i) rfl Linked.empty
  have hk : Pool.Keeps (linking calls)
      (fun i o l => ∀ tokens, o = .ok tokens → SignedIn (calls i) tokens l) .empty P :=
    Pool.ReachesIf.keeps hP hstart
  have hlinked : Linked P.gen P.db := hk.inv
  refine ⟨hlinked.subjects, fun P' hP' r hr r' hr' hsub => ?_, fun r hr r' hr' hu => ?_,
    hlinked.devices, fun i identity d tokens hc hend => ?_⟩
  · have hk' : Pool.Keeps (linking calls)
        (fun i o l => ∀ tokens, o = .ok tokens → SignedIn (calls i) tokens l) .empty P' :=
      Pool.ReachesIf.keeps hP' hk
    have hlinked' : Linked P'.gen P'.db := hk'.inv
    rw [List.inj_on_of_nodup_map hlinked'.subjects hr' (ReachesIf.identities hP' hr) hsub]
  · rw [List.inj_on_of_nodup_map hlinked.owners hr hr' hu]
  · exact hk.result hend tokens rfl identity d hc

end Pools

/-- A device that registers, and two first sign-ins on it. -/
def phone : Fin 3 → AuthCall
  | 0 => .register (some (.given "phone"))
  | 1 => .apple (.ok ⟨"alice", none⟩) (some (.given "phone"))
  | 2 => .apple (.ok ⟨"bob", none⟩) (some (.given "phone"))

/-- The test `MeetsOwner`, computed. -/
def meetsOwner : AuthCall → AuthDb → TxAct AuthStmt → Bool
  | .apple .., d, .stmt (.insertDevice _ dev) => (d.deviceUser dev).all fun v => d.hasApple v
  | _, _, _ => true

theorem meetsOwner_iff (c : AuthCall) (d : AuthDb) (e : TxAct AuthStmt) :
    meetsOwner c d e = true ↔ MeetsOwner c d e := by
  cases c with
  | apple v d' =>
    cases e with
    | stmt s =>
      cases s with
      | insertDevice u dev =>
        simp only [meetsOwner, MeetsOwner, Option.all_eq_true, AuthDb.hasApple_iff]
        rfl
      | _ => simp [meetsOwner, MeetsOwner]
    | commit => simp [meetsOwner, MeetsOwner]
    | rollback => simp [meetsOwner, MeetsOwner]
  | register d' => simp [meetsOwner, MeetsOwner]
  | refresh tok => simp [meetsOwner, MeetsOwner]

/-- The sign-ins have been answered, with tokens for two users. -/
def twoUsers (P : AuthPool (Fin 3)) : Bool :=
  answered (P.thr 1).prog && answered (P.thr 2).prog && P.db.identities.length = 2

/-- One after the other, the sign-ins get two users. -/
theorem identity_mapping_run : ∃ P : AuthPool (Fin 3), twoUsers P ∧
    (P.db.identities.map AuthIdentity.subject).Nodup ∧
    ∀ r ∈ P.db.identities, ∀ r' ∈ P.db.identities, r.userId = r'.userId →
      r.subject = r'.subject := by
  have hids : ∀ i : Fin 3, i ∈ [0, 1, 2] := by decide
  have hplay : (Pool.playIf authHandler (fun i => meetsOwner (phone i)) [0, 1, 2]
      [0, 0, 0, 0, 0, 0, 0, 1, 1, 1, 1, 1, 1, 1, 1, 1, 1, 2, 2, 2, 2, 2, 2, 2, 2, 2, 2, 2]
      (requests issuer phone) ()).any (fun r => twoUsers r.1) = true := by rfl
  obtain ⟨P, hP, htest⟩ := Pool.exists_of_playIf hids hplay
  simp only [meetsOwner_iff] at hP
  have hcalls : ∀ i tok, phone i ≠ .refresh tok := by
    intro i tok h
    fin_cases i <;> cases h
  have h := identity_mapping phone hcalls hP
  exact ⟨P, htest, h.1, h.2.2.1⟩

/-- One user owns two subjects. -/
def oneUser (P : AuthPool (Fin 3)) : Bool :=
  P.db.identities = [⟨0, "bob", none⟩, ⟨0, "alice", none⟩]

/-- The first sign-in has looked before the device was registered. -/
theorem identity_mapping_fails :
    ∃ P : AuthPool (Fin 3), (requests issuer phone).Reaches authStore P ∧
      ∃ r ∈ P.db.identities, ∃ r' ∈ P.db.identities, r.userId = r'.userId ∧
        r.subject ≠ r'.subject := by
  have hids : ∀ i : Fin 3, i ∈ [0, 1, 2] := by decide
  have hplay : (Pool.play authHandler [0, 1, 2]
      [1, 1, 0, 0, 0, 0, 0, 0, 0, 1, 1, 1, 1, 2, 2, 2, 2, 2, 2, 2, 2, 2, 2, 1, 1, 1, 1, 1, 1]
      (requests issuer phone) ()).any (fun r => oneUser r.1) = true := by rfl
  obtain ⟨P, hP, htest⟩ := Pool.exists_of_play hids hplay
  have hids : P.db.identities = [⟨0, "bob", none⟩, ⟨0, "alice", none⟩] := of_decide_eq_true htest
  refine ⟨P, hP, ⟨0, "bob", none⟩, by simp [hids], ⟨0, "alice", none⟩, by simp [hids], rfl, ?_⟩
  decide

end ChatBackend.Auth
