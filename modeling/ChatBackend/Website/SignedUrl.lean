import ChatBackend.Foundations.Integer
import ChatBackend.Model.Cursor

/-!
# Signed preview links

The tokens of the preview links: an expiry and a MAC over the project, its owner and the expiry,
each in base 64 without padding. The MAC is a parameter. What a token is worth is `preview_tokens`:
a token that was built verifies until its expiry, no other token verifies when the MAC is ideal
(`Ideal`), and no text makes the verification fail with an error.
-/

namespace ChatBackend.Website.SignedUrl

/-- What the functions raise. `binascii.Error` and `UnicodeDecodeError` are value errors. -/
inductive TokenError
  | valueError
  | previewSecretMissing
  deriving DecidableEq

/-- The settings of the preview links. -/
structure Settings where
  previewUrlSecret : String
  previewUrlTtlSeconds : ℤ

structure SignedPreview where
  token : String
  expiresAt : ℤ

/-- The digits that the conversions between numbers and texts accept. -/
def intMaxStrDigits : ℕ := 4300

/-- A missing value as a value error. -/
def orValueError {α : Type} : Option α → Except TokenError α
  | some a => .ok a
  | none => .error .valueError

/-- `text.encode("utf-8")`. -/
def encodeUtf8 (text : List Char) : List UInt8 := (String.ofList text).toUTF8.data.toList

/-- `text.encode("ascii")`. -/
def encodeAscii (text : List Char) : Option (List UInt8) :=
  if text.all (·.toNat < 128) then some (text.map fun c => UInt8.ofNat c.toNat) else none

/-- `data.decode("ascii")`. -/
def decodeAscii (data : List UInt8) : Option (List Char) :=
  if data.all (· < 128) then some (data.map fun b => Char.ofNat b.toNat) else none

/-- `_b64url_encode`. -/
def b64urlEncode (data : List UInt8) : List Char := Base64.trim (Base64.encode Base64.urlsafe data)

/-- `_b64url_decode`: the padding is put back, and foreign characters are passed over. -/
def b64urlDecode (value : List Char) : Option (List UInt8) :=
  if (Base64.pad value).all (·.toNat < 128) then Base64.decode Base64.urlsafe false (Base64.pad value)
  else none

/-- `_secret`. -/
def secret (cfg : Settings) : Except TokenError (List UInt8) :=
  if cfg.previewUrlSecret = "" then .error .previewSecretMissing
  else .ok (encodeUtf8 cfg.previewUrlSecret.toList)

/-- `_canonical`: the text that is signed. -/
def canonical (projectId ownerUserId : Uuid) (exp : ℤ) : Except TokenError (List UInt8) := do
  let digits ← orValueError (Integer.write intMaxStrDigits exp)
  return encodeUtf8 (uuidStr projectId ++ '|' :: (uuidStr ownerUserId ++ '|' :: digits))

section Tokens

variable (hmac : (key text : List UInt8) → List UInt8) (cfg : Settings)

/-- `_sign`. -/
def sign (projectId ownerUserId : Uuid) (exp : ℤ) : Except TokenError (List UInt8) := do
  let key ← secret cfg
  let text ← canonical projectId ownerUserId exp
  return hmac key text

/-- `build_token`. -/
def buildToken (projectId ownerUserId : Uuid) (now : ℤ) : Except TokenError SignedPreview := do
  let exp := now + cfg.previewUrlTtlSeconds
  let mac ← sign hmac cfg projectId ownerUserId exp
  let digits ← orValueError (Integer.write intMaxStrDigits exp)
  let data ← orValueError (encodeAscii digits)
  return ⟨String.ofList (b64urlEncode data ++ '.' :: b64urlEncode mac), exp⟩

/-- The block of `verify_token` that may fail: the expiry and the MAC of a token. -/
def tokenParts (expPart macPart : List Char) : Except TokenError (ℤ × List UInt8) := do
  let data ← orValueError (b64urlDecode expPart)
  let text ← orValueError (decodeAscii data)
  let exp ← orValueError (Integer.read intMaxStrDigits text)
  let presentedMac ← orValueError (b64urlDecode macPart)
  return (exp, presentedMac)

/-- `verify_token`. -/
def verifyToken (projectId ownerUserId : Uuid) (token : String) (now : ℤ) : Except TokenError Bool :=
  match token.toList.splitOn '.' with
  | [expPart, macPart] =>
    match tokenParts expPart macPart with
    | .error .valueError => .ok false
    | .error e => .error e
    | .ok (exp, presentedMac) => do
      let expectedMac ← sign hmac cfg projectId ownerUserId exp
      if presentedMac ≠ expectedMac then return false
      return decide (now ≤ exp)
  | _ => .ok false

end Tokens

/-! ## An ideal MAC -/

/-- The key of the MAC. -/
def Settings.key (cfg : Settings) : List UInt8 := encodeUtf8 cfg.previewUrlSecret.toList

/-- The MAC that a token carries. -/
def presentedMac (token : String) : Option (List UInt8) :=
  match token.toList.splitOn '.' with
  | [_, macPart] => b64urlDecode macPart
  | _ => none

/-- A token that was built. -/
structure Build where
  projectId : Uuid
  ownerUserId : Uuid
  now : ℤ

/-- The expiry of a token. -/
def Build.expiresAt (cfg : Settings) (b : Build) : ℤ := b.now + cfg.previewUrlTtlSeconds

/-- The text whose MAC is in the token. -/
def Build.signedText (cfg : Settings) (b : Build) : Option (List UInt8) :=
  (canonical b.projectId b.ownerUserId (b.expiresAt cfg)).toOption

/-- An ideal MAC, for the texts that were signed and the MAC that somebody presents: no other text
has the MAC of a text that was signed, and a MAC of a text is presented only if it was given out. -/
structure Ideal (mac : List UInt8 → List UInt8) (signed : List (List UInt8))
    (presented : Option (List UInt8)) : Prop where
  collisionFree : ∀ a ∈ signed, ∀ text, mac text = mac a → text = a
  unforgeable : ∀ text, some (mac text) = presented → mac text ∈ signed.map mac

/-! ## Round trips -/

variable {hmac : (key text : List UInt8) → List UInt8} {cfg : Settings} {p o : Uuid} {e now : ℤ}
  {text digits : List Char} {data : List UInt8}

theorem encodeUtf8_injective : Function.Injective encodeUtf8 := by
  intro s t h
  have hbytes : (String.ofList s).toUTF8 = (String.ofList t).toUTF8 :=
    ByteArray.ext (Array.toList_inj.1 h)
  have hstring : String.ofList s = String.ofList t :=
    Option.some.inj ((fromUTF8?_toUTF8 _).symm.trans ((congrArg _ hbytes).trans (fromUTF8?_toUTF8 _)))
  exact String.ofList_injective hstring

theorem b64urlEncode_ascii (data : List UInt8) {c : Char} (hc : c ∈ b64urlEncode data) :
    c.toNat < 128 ∧ c ≠ '.' := by
  have hdigits : ∀ n < 64, (Base64.urlsafe.digit n).toNat < 128 ∧ Base64.urlsafe.digit n ≠ '.' := by
    decide +kernel
  obtain ⟨n, hn, rfl⟩ := Base64.mem_trim_encode data hc
  exact hdigits n hn

/-- **What is encoded is decoded.** -/
theorem b64urlDecode_encode (data : List UInt8) : b64urlDecode (b64urlEncode data) = some data := by
  have hascii : (Base64.pad (b64urlEncode data)).all (·.toNat < 128) = true := by
    rw [List.all_eq_true, Base64.pad]
    intro c hc
    rcases List.mem_append.1 hc with hc | hc
    · exact decide_eq_true (b64urlEncode_ascii data hc).1
    · rw [List.eq_of_mem_replicate hc]
      decide
  rw [b64urlDecode, if_pos hascii, b64urlEncode, Base64.pad_trim_encode, Base64.decode_encode]

theorem decodeAscii_encodeAscii (h : encodeAscii text = some data) : decodeAscii data = some text := by
  rw [encodeAscii] at h
  split at h
  · rename_i hall
    cases h
    have hlt : ∀ c ∈ text, c.toNat < 128 := fun c hc => of_decide_eq_true (List.all_eq_true.1 hall c hc)
    have hdata : (text.map fun c => UInt8.ofNat c.toNat).all (· < 128) = true := by
      rw [List.all_eq_true]
      intro b hb
      obtain ⟨c, hc, rfl⟩ := List.mem_map.1 hb
      have := hlt c hc
      rw [decide_eq_true_iff, UInt8.lt_iff_toNat_lt, UInt8.toNat_ofNat']
      exact lt_of_le_of_lt (Nat.mod_le _ _) this
    rw [decodeAscii, if_pos hdata, List.map_map]
    congr 1
    refine (List.map_congr_left fun c hc => ?_).trans (List.map_id _)
    have hmod : c.toNat % 2 ^ 8 = c.toNat := Nat.mod_eq_of_lt (lt_trans (hlt c hc) (by decide))
    rw [Function.comp_apply, UInt8.toNat_ofNat', hmod, Char.ofNat_toNat]
    rfl
  · cases h

theorem exists_encodeAscii {n : ℤ} (h : Integer.write intMaxStrDigits n = some digits) :
    ∃ data, encodeAscii digits = some data := by
  have hdigits : "0123456789abcdef".toList.all (·.toNat < 128) = true := by decide +kernel
  refine ⟨_, if_pos (List.all_eq_true.2 fun c hc => ?_)⟩
  rcases Integer.mem_write h hc with rfl | hc
  · decide
  · exact List.all_eq_true.1 hdigits c (Decimal.mem_write (by decide) (by decide) hc)

/-! ## The text that is signed -/

theorem bar_not_mem_uuidStr (u : Uuid) : '|' ∉ uuidStr u := by
  have hhex : ∀ l : List Char, l ⊆ Decimal.write 16 32 u → '|' ∉ l :=
    fun l hl hbar => (hexDigits (hl hbar)).2.2 rfl
  have htake : ∀ m n, ((Decimal.write 16 32 (u : ℕ)).drop m).take n ⊆ Decimal.write 16 32 u :=
    fun m n c hc => List.mem_of_mem_drop (List.mem_of_mem_take hc)
  simp [uuidStr, hhex _ (List.take_subset 8 _), hhex _ (htake 8 4), hhex _ (htake 12 4),
    hhex _ (htake 16 4), hhex _ (List.drop_subset 20 _)]

theorem canonical_eq_ok : canonical p o e = .ok data ↔ ∃ digits,
    Integer.write intMaxStrDigits e = some digits ∧
      encodeUtf8 (uuidStr p ++ '|' :: (uuidStr o ++ '|' :: digits)) = data := by
  cases h : Integer.write intMaxStrDigits e with
  | none => simp [canonical, h, orValueError, bind, Except.bind]
  | some digits => simp [canonical, h, orValueError, bind, Except.bind, pure, Except.pure]

/-- **The text that is signed determines the project, the owner and the expiry.** -/
theorem canonical_injective {p' o' : Uuid} {e' : ℤ} (h : canonical p o e = .ok data)
    (h' : canonical p' o' e' = .ok data) : p = p' ∧ o = o' ∧ e = e' := by
  obtain ⟨digits, hdigits, hdata⟩ := canonical_eq_ok.1 h
  obtain ⟨digits', hdigits', hdata'⟩ := canonical_eq_ok.1 h'
  have huuid : ∀ u v, uuidStr u = uuidStr v → u = v := fun u v huv =>
    Option.some.inj ((uuidOf_uuidStr u).symm.trans ((congrArg uuidOf huv).trans (uuidOf_uuidStr v)))
  have htext := encodeUtf8_injective (hdata.trans hdata'.symm)
  have hproject := congrArg cut htext
  rw [cut_append (bar_not_mem_uuidStr p), cut_append (bar_not_mem_uuidStr p'), Option.some_inj,
    Prod.mk.injEq] at hproject
  have howner := congrArg cut hproject.2
  rw [cut_append (bar_not_mem_uuidStr o), cut_append (bar_not_mem_uuidStr o'), Option.some_inj,
    Prod.mk.injEq] at howner
  have hexp : some e = some e' := by
    rw [← Integer.read_write hdigits, ← Integer.read_write hdigits', howner.2]
  exact ⟨huuid _ _ hproject.1, huuid _ _ howner.1, Option.some.inj hexp⟩

theorem exists_canonical_iff :
    (∃ data, canonical p o e = .ok data) ↔ e.natAbs < 10 ^ intMaxStrDigits := by
  rw [← Integer.exists_write_iff (by decide)]
  constructor
  · rintro ⟨data, h⟩
    obtain ⟨digits, hdigits, -⟩ := canonical_eq_ok.1 h
    exact ⟨digits, hdigits⟩
  · rintro ⟨digits, hdigits⟩
    exact ⟨_, canonical_eq_ok.2 ⟨digits, hdigits, rfl⟩⟩

section Configured

variable (hsecret : cfg.previewUrlSecret ≠ "")
include hsecret

theorem sign_eq : sign hmac cfg p o e = (canonical p o e).map (hmac cfg.key) := by
  rw [sign, secret, if_neg hsecret]
  rfl

/-- What a token is made of. -/
theorem buildToken_eq_ok {preview : SignedPreview} : buildToken hmac cfg p o now = .ok preview ↔
    ∃ text digits data, canonical p o (now + cfg.previewUrlTtlSeconds) = .ok text ∧
      Integer.write intMaxStrDigits (now + cfg.previewUrlTtlSeconds) = some digits ∧
      encodeAscii digits = some data ∧
      preview = ⟨String.ofList (b64urlEncode data ++ '.' :: b64urlEncode (hmac cfg.key text)),
        now + cfg.previewUrlTtlSeconds⟩ := by
  rw [buildToken]
  simp only [sign_eq hsecret]
  cases htext : canonical p o (now + cfg.previewUrlTtlSeconds) with
  | error e => simp [Except.map, bind, Except.bind]
  | ok text =>
    obtain ⟨digits, hdigits, -⟩ := canonical_eq_ok.1 htext
    obtain ⟨data, hdata⟩ := exists_encodeAscii hdigits
    simp [Except.map, bind, Except.bind, pure, Except.pure, hdigits, hdata, orValueError, eq_comm]

/-! ## What a token is worth -/

omit hsecret in
theorem splitOn_token (x y : List UInt8) :
    (String.ofList (b64urlEncode x ++ '.' :: b64urlEncode y)).toList.splitOn '.' =
      [b64urlEncode x, b64urlEncode y] := by
  have hdot : ∀ z, '.' ∉ b64urlEncode z := fun z hz => (b64urlEncode_ascii z hz).2 rfl
  rw [String.toList_ofList, List.splitOn_append_cons_self_of_not_mem (hdot x),
    List.splitOn_eq_singleton (hdot y)]

/-- **A token that was built verifies until its expiry.** -/
theorem verifyToken_buildToken {preview : SignedPreview} {issued : ℤ}
    (h : buildToken hmac cfg p o issued = .ok preview) (now : ℤ) :
    verifyToken hmac cfg p o preview.token now = .ok (decide (now ≤ preview.expiresAt)) := by
  obtain ⟨text, digits, data, htext, hdigits, hdata, rfl⟩ := (buildToken_eq_ok hsecret).1 h
  have hparts : tokenParts (b64urlEncode data) (b64urlEncode (hmac cfg.key text)) =
      .ok (issued + cfg.previewUrlTtlSeconds, hmac cfg.key text) := by
    simp [tokenParts, b64urlDecode_encode, decodeAscii_encodeAscii hdata, Integer.read_write hdigits,
      orValueError, bind, Except.bind, pure, Except.pure]
  rw [verifyToken, splitOn_token]
  simp [hparts, sign_eq hsecret, htext, Except.map, bind, Except.bind, pure, Except.pure]

omit hsecret in
/-- The expiry that is read is within the limit of digits, and the block fails with a value error. -/
theorem tokenParts_spec (expPart macPart : List Char) :
    tokenParts expPart macPart = .error .valueError ∨
      ∃ exp mac, tokenParts expPart macPart = .ok (exp, mac) ∧ b64urlDecode macPart = some mac ∧
        exp.natAbs < 10 ^ intMaxStrDigits := by
  cases hdata : b64urlDecode expPart with
  | none => exact .inl (by simp [tokenParts, hdata, orValueError, bind, Except.bind])
  | some data =>
    cases htext : decodeAscii data with
    | none => exact .inl (by simp [tokenParts, hdata, htext, orValueError, bind, Except.bind])
    | some text =>
      cases hexp : Integer.read intMaxStrDigits text with
      | none => exact .inl (by simp [tokenParts, hdata, htext, hexp, orValueError, bind, Except.bind])
      | some exp =>
        cases hmac : b64urlDecode macPart with
        | none =>
          exact .inl (by simp [tokenParts, hdata, htext, hexp, hmac, orValueError, bind, Except.bind])
        | some mac =>
          have hlimit := (Integer.exists_write_iff (by decide)).1 (Integer.exists_write (by decide) hexp)
          exact .inr ⟨exp, mac, by simp [tokenParts, hdata, htext, hexp, hmac, orValueError, bind,
            Except.bind, pure, Except.pure], rfl, hlimit⟩

variable (hmac p o) in
/-- **The verification of a token**: it compares the MAC of the token with that of its text, or it
knows that the token is malformed. -/
theorem verifyToken_spec (token : String) (now : ℤ) :
    verifyToken hmac cfg p o token now = .ok false ∨
      ∃ exp text, canonical p o exp = .ok text ∧ (∃ mac, presentedMac token = some mac ∧
        verifyToken hmac cfg p o token now = .ok (decide (mac = hmac cfg.key text ∧ now ≤ exp))) := by
  rw [verifyToken, presentedMac]
  split
  · rename_i expPart macPart heq
    obtain hparts | ⟨exp, mac, hparts, hcarried, hlimit⟩ := tokenParts_spec expPart macPart
    · exact .inl (by rw [hparts])
    · obtain ⟨text, htext⟩ := exists_canonical_iff.2 hlimit
      refine .inr ⟨exp, text, htext, mac, hcarried, ?_⟩
      rw [hparts]
      simp only [sign_eq hsecret, htext, Except.map, bind, Except.bind, pure, Except.pure]
      by_cases heq : mac = hmac cfg.key text <;> simp [heq]
  · exact .inl rfl

/-- **A token that verifies was built**, for this project and this owner. -/
theorem exists_build {builds : List Build} {token : String}
    (hideal : Ideal (hmac cfg.key) (builds.filterMap (Build.signedText cfg)) (presentedMac token))
    (h : verifyToken hmac cfg p o token now = .ok true) :
    ∃ b ∈ builds, b.projectId = p ∧ b.ownerUserId = o ∧ now ≤ b.expiresAt cfg ∧
      ∃ preview, buildToken hmac cfg p o b.now = .ok preview := by
  obtain hfalse | ⟨exp, text, htext, mac, hcarried, hverify⟩ :=
    verifyToken_spec hmac p o hsecret token now
  · rw [hfalse] at h
    cases h
  · rw [hverify] at h
    obtain ⟨rfl, hlive⟩ := of_decide_eq_true (Except.ok.inj h)
    obtain ⟨a, ha, heq⟩ := List.mem_map.1 (hideal.unforgeable text hcarried.symm)
    obtain rfl := hideal.collisionFree a ha text heq.symm
    obtain ⟨b, hb, hsigned⟩ := List.mem_filterMap.1 ha
    have hcanonical : canonical b.projectId b.ownerUserId (b.expiresAt cfg) = .ok text := by
      rw [Build.signedText] at hsigned
      cases hc : canonical b.projectId b.ownerUserId (b.expiresAt cfg) with
      | error e => rw [hc] at hsigned; cases hsigned
      | ok t => rw [hc] at hsigned; exact congrArg _ (Option.some.inj hsigned)
    obtain ⟨rfl, rfl, rfl⟩ := canonical_injective hcanonical htext
    obtain ⟨digits, hdigits, -⟩ := canonical_eq_ok.1 htext
    obtain ⟨data, hdata⟩ := exists_encodeAscii hdigits
    exact ⟨b, hb, rfl, rfl, hlive, _,
      (buildToken_eq_ok hsecret).2 ⟨text, digits, data, htext, hdigits, hdata, rfl⟩⟩

end Configured

/-- **Preview tokens.** With a secret configured: a token is built for every expiry that can be
written, and verifies for its own project and owner exactly until its expiry; a text verifies, the
MAC being ideal, only if a token was built for exactly this project and owner whose expiry has not
passed; the text that is signed determines project, owner and expiry; and the verification answers
on every text. -/
theorem preview_tokens (hmac : (key text : List UInt8) → List UInt8) (cfg : Settings)
    (builds : List Build) (token : String) (hsecret : cfg.previewUrlSecret ≠ "")
    (hideal : Ideal (hmac cfg.key) (builds.filterMap (Build.signedText cfg)) (presentedMac token)) :
    (∀ p o issued preview, buildToken hmac cfg p o issued = .ok preview →
      preview.expiresAt = issued + cfg.previewUrlTtlSeconds ∧
      ∀ now, verifyToken hmac cfg p o preview.token now = .ok (decide (now ≤ preview.expiresAt))) ∧
    (∀ p o issued, (∃ preview, buildToken hmac cfg p o issued = .ok preview) ↔
      (issued + cfg.previewUrlTtlSeconds).natAbs < 10 ^ intMaxStrDigits) ∧
    (∀ p o now, verifyToken hmac cfg p o token now = .ok true →
      ∃ b ∈ builds, b.projectId = p ∧ b.ownerUserId = o ∧ now ≤ b.expiresAt cfg ∧
        ∃ preview, buildToken hmac cfg p o b.now = .ok preview) ∧
    (∀ p o e p' o' e' data, canonical p o e = .ok data → canonical p' o' e' = .ok data →
      p = p' ∧ o = o' ∧ e = e') ∧
    ∀ p o text now, ∃ verdict, verifyToken hmac cfg p o text now = .ok verdict := by
  refine ⟨fun p o issued preview h => ⟨?_, verifyToken_buildToken hsecret h⟩, fun p o issued => ?_,
    fun p o now => exists_build hsecret hideal, fun p o e p' o' e' data => canonical_injective,
    fun p o text now => ?_⟩
  · obtain ⟨text, digits, data, -, -, -, rfl⟩ := (buildToken_eq_ok hsecret).1 h
    rfl
  · rw [← exists_canonical_iff (p := p) (o := o)]
    constructor
    · rintro ⟨preview, h⟩
      obtain ⟨text, digits, data, htext, -⟩ := (buildToken_eq_ok hsecret).1 h
      exact ⟨text, htext⟩
    · rintro ⟨text, htext⟩
      obtain ⟨digits, hdigits, -⟩ := canonical_eq_ok.1 htext
      obtain ⟨data, hdata⟩ := exists_encodeAscii hdigits
      exact ⟨_, (buildToken_eq_ok hsecret).2 ⟨text, digits, data, htext, hdigits, hdata, rfl⟩⟩
  · obtain hfalse | ⟨exp, signed, -, mac, -, hverify⟩ :=
      verifyToken_spec hmac p o hsecret text now
    · exact ⟨_, hfalse⟩
    · exact ⟨_, hverify⟩

/-- A MAC that is that of the secret of `sampleSettings` on one text. -/
def sampleHmac (key text : List UInt8) : List UInt8 :=
  if key = encodeUtf8 "preview-secret".toList ∧ text = encodeUtf8
      "00000000-0000-0000-0000-000000000001|00000000-0000-0000-0000-000000000002|4600".toList then
    [51, 59, 10, 224, 184, 39, 167, 90, 170, 232, 254, 13, 35, 168, 224, 216, 82, 134, 144, 206, 154,
      193, 2, 126, 55, 22, 203, 165, 242, 101, 152, 54]
  else []

def sampleSettings : Settings := ⟨"preview-secret", 3600⟩

theorem sampleHmac_ideal : Ideal (sampleHmac sampleSettings.key)
    ([Build.mk 1 2 1000].filterMap (Build.signedText sampleSettings))
    (presentedMac "NDYwMA.MzsK4Lgnp1qq6P4NI6jg2FKGkM6awQJ-NxbLpfJlmDY") := by
  have hsigned : [Build.mk 1 2 1000].filterMap (Build.signedText sampleSettings) = [encodeUtf8
      "00000000-0000-0000-0000-000000000001|00000000-0000-0000-0000-000000000002|4600".toList] := by
    decide +kernel
  have hpresented : presentedMac "NDYwMA.MzsK4Lgnp1qq6P4NI6jg2FKGkM6awQJ-NxbLpfJlmDY" =
      some (sampleHmac sampleSettings.key (encodeUtf8
        "00000000-0000-0000-0000-000000000001|00000000-0000-0000-0000-000000000002|4600".toList)) := by
    decide +kernel
  rw [hsigned, hpresented]
  refine ⟨fun a ha text h => ?_, fun text h => ?_⟩
  · obtain rfl := List.mem_singleton.1 ha
    by_contra hne
    rw [sampleHmac, if_neg fun hand => hne hand.2] at h
    exact absurd h (by decide +kernel)
  · rw [Option.some.inj h]
    exact List.mem_map_of_mem (List.mem_singleton_self _)

/-- A token, built at 1000 for one hour: it verifies at 4600, and one was built for its project. -/
theorem preview_tokens_sample :
    verifyToken sampleHmac sampleSettings 1 2 "NDYwMA.MzsK4Lgnp1qq6P4NI6jg2FKGkM6awQJ-NxbLpfJlmDY" 4600 =
      .ok true ∧
    ∃ b ∈ [Build.mk 1 2 1000], b.projectId = 1 ∧ b.ownerUserId = 2 ∧
      4600 ≤ b.expiresAt sampleSettings ∧
      ∃ preview, buildToken sampleHmac sampleSettings 1 2 b.now = .ok preview := by
  have hverify : verifyToken sampleHmac sampleSettings 1 2
      "NDYwMA.MzsK4Lgnp1qq6P4NI6jg2FKGkM6awQJ-NxbLpfJlmDY" 4600 = .ok true := by decide +kernel
  have htoken := preview_tokens sampleHmac sampleSettings [Build.mk 1 2 1000]
    "NDYwMA.MzsK4Lgnp1qq6P4NI6jg2FKGkM6awQJ-NxbLpfJlmDY" (by decide) sampleHmac_ideal
  exact ⟨hverify, htoken.2.2.1 1 2 4600 hverify⟩

end ChatBackend.Website.SignedUrl
