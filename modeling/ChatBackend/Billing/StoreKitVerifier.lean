import ChatBackend.Billing.StoreKit

/-!
# The verifier of StoreKit transactions

`verify` reads the header of a signed transaction, checks the chain of certificates in it up to a
root, decodes the payload with the key of the leaf, and takes the fields of the transaction from it.
The libraries for base64, JSON, certificates and tokens are given by what they return or raise.
`storekit_sound` says what an accepted transaction has passed, `storekit_errors` when a text is
answered with a transaction or a `ValidationFailedError` and nothing else.
-/

namespace ChatBackend.Billing.StoreKitVerifier

open StoreKit (VerifiedTransaction)

/-- What the libraries raise, by the classes that the verifier tells apart. -/
inductive LibError : Type
  | valueError
  | typeError
  | overflowError
  | recursionError
  | unsupportedAlgorithm
  | invalidSignature
  /-- `jwt.InvalidTokenError`. -/
  | invalidToken
  deriving DecidableEq, Repr

/-- What the verifier raises. -/
inductive VerifyError : Type
  | validationFailed (message : String)
  | lib (e : LibError)
  deriving DecidableEq, Repr

/-- The kind of a public key. -/
inductive KeyType : Type
  | ellipticCurve
  | rsa
  | unsupported
  deriving DecidableEq, Repr

/-- The libraries, over certificates `C`, keys `K` and hash algorithms `H`. -/
structure Libraries (C K H : Type) where
  /-- `base64.urlsafe_b64decode`. -/
  urlsafeB64decode : String → Except LibError (List UInt8)
  /-- `base64.b64decode`. -/
  b64decode : String → Except LibError (List UInt8)
  /-- `json.loads`. -/
  loads : List UInt8 → Except LibError WireJson
  loadDerX509Certificate : List UInt8 → Except LibError C
  /-- `certificate.public_bytes(Encoding.DER)`. -/
  publicBytes : C → List UInt8
  signatureHashAlgorithm : C → Except LibError (Option H)
  publicKey : C → Except LibError K
  keyType : K → KeyType
  /-- `pubkey.verify` of the signature of a certificate. -/
  verifySignature : K → C → H → Except LibError Unit
  /-- The common names of the subject. -/
  commonNames : C → Except LibError (List String)
  /-- `jwt.decode` with a public key and the algorithm ES256. -/
  decodeES256 : String → K → Except LibError (List (String × WireJson))
  /-- `jwt.decode` with a secret and the algorithm HS256. -/
  decodeHS256 : String → String → Except LibError (List (String × WireJson))
  str : WireJson → String
  lower : String → String
  /-- `int(value)`. -/
  int : WireJson → Except LibError ℤ
  /-- `datetime.fromtimestamp(ms / 1000, tz=UTC)`. -/
  fromtimestamp : ℤ → Except LibError Time

/-- The configuration of the verifier. -/
structure VerifierConfig (C : Type) where
  bundleId : String
  environment : String
  roots : List C
  testSecret : String
  storekitTestMode : Bool
  trustAnyXcodeCert : Bool

/-- `self._test_mode`. -/
def VerifierConfig.testMode {C : Type} (cfg : VerifierConfig C) : Bool :=
  cfg.storekitTestMode && cfg.testSecret ≠ ""

section Verify

variable {C K H : Type} (lib : Libraries C K H) (cfg : VerifierConfig C)

/-- A call of a library. -/
def call {α : Type} (x : Except LibError α) : Except VerifyError α := x.mapError .lib

/-- `_b64url_decode`. -/
def b64urlDecode (segment : String) : Except LibError (List UInt8) :=
  lib.urlsafeB64decode (segment ++ String.ofList (List.replicate ((4 - segment.length % 4) % 4) '='))

/-- `jws.split(".", 1)[0]`. -/
def headerSegment (jws : String) : String := String.ofList (jws.toList.takeWhile (· ≠ '.'))

/-- The document of the header. -/
def headerDocument (jws : String) : Except LibError WireJson := do
  let bytes ← b64urlDecode lib (headerSegment jws)
  lib.loads bytes

/-- `_jws_header`. -/
def jwsHeader (jws : String) : Except VerifyError (List (String × WireJson)) :=
  match headerDocument lib jws with
  | .error .valueError => throw (.validationFailed "StoreKit JWS header is not valid base64url JSON")
  | .error e => throw (.lib e)
  | .ok (.obj kvs) => pure kvs
  | .ok _ => throw (.validationFailed "StoreKit JWS header must be a JSON object")

/-- `base64.b64decode(cert)`, which takes texts only, and the certificate. -/
def loadCertificate : WireJson → Except LibError C
  | .str s => do
    let der ← lib.b64decode s
    lib.loadDerX509Certificate der
  | _ => throw .typeError

/-- `_load_certificate_chain`, from the header: the leaf and the certificates after it. -/
def loadCertificateChain (header : List (String × WireJson)) : Except VerifyError (C × List C) :=
  match (WireJson.obj header).get "x5c" with
  | .arr (cert :: certs) => do
    let leaf ← call (loadCertificate lib cert)
    let rest ← call (certs.mapM (loadCertificate lib))
    pure (leaf, rest)
  | _ => throw (.validationFailed "StoreKit JWS missing x5c certificate chain")

/-- `_verify_signed_by`. -/
def verifySignedBy (child issuer : C) : Except VerifyError Unit := do
  match ← call (lib.signatureHashAlgorithm child) with
  | none => throw (.validationFailed "certificate missing signature hash algorithm")
  | some hash => do
    let pubkey ← call (lib.publicKey issuer)
    if lib.keyType pubkey = .unsupported then
      throw (.validationFailed "Unsupported certificate key type in StoreKit chain")
    else call (lib.verifySignature pubkey child hash)

/-- The loop over the chain: each certificate by the next. -/
def verifyLinks : List C → Except VerifyError Unit
  | child :: issuer :: rest => do
    verifySignedBy lib child issuer
    verifyLinks (issuer :: rest)
  | _ => pure ()

/-- The end of the chain: a root, or signed by one. -/
def anchored (root : C) : Bool :=
  (cfg.roots.map lib.publicBytes).contains (lib.publicBytes root) ||
    cfg.roots.any fun trusted => (verifySignedBy lib root trusted).toBool

/-- `_verify_chain`. -/
def verifyChain (leaf : C) (rest : List C) : Except VerifyError Unit := do
  verifyLinks lib (leaf :: rest)
  if anchored lib cfg (rest.getLastD leaf) then pure ()
  else throw (.validationFailed "StoreKit certificate chain not anchored to a trusted root")

/-- `_leaf_cn_matches_xcode`. -/
def leafCnMatchesXcode (leaf : C) : Bool :=
  match lib.commonNames leaf with
  | .ok [cn] => cn = "StoreKit Testing in Xcode"
  | _ => false

/-- The gates before the signature of the payload. -/
def anchor (leaf : C) (rest : List C) : Except VerifyError Unit :=
  if cfg.trustAnyXcodeCert && leafCnMatchesXcode lib leaf then pure ()
  else if cfg.roots.isEmpty then
    throw (.validationFailed ("App Store root certificates not configured (APPSTORE_ROOT_CERT_DIR); " ++
      "cannot verify StoreKit transaction"))
  else verifyChain lib cfg leaf rest

/-- The `try` around `jwt.decode`. -/
def decoded (x : Except LibError (List (String × WireJson))) :
    Except VerifyError (List (String × WireJson)) :=
  match x with
  | .error .invalidToken => throw (.validationFailed "StoreKit JWS signature invalid")
  | .error e => throw (.lib e)
  | .ok payload => pure payload

/-- `payload.get(key, default)`. -/
def getOr (payload : List (String × WireJson)) (key : String) (default : WireJson) : WireJson :=
  ((payload.find? fun kv => kv.1 = key).map Prod.snd).getD default

/-- `str(payload.get("environment", self._environment)).lower()`. -/
def environmentOf (payload : List (String × WireJson)) : String :=
  lib.lower (lib.str (getOr payload "environment" (.str cfg.environment)))

/-- The bundle of the payload is not the one that is configured. -/
def bundleMismatch (payload : List (String × WireJson)) : Bool :=
  cfg.bundleId ≠ "" && match getOr payload "bundleId" .null with
    | .str s => s ≠ cfg.bundleId
    | _ => true

/-- `expires_at` of the payload. -/
def expiresAtOf (payload : List (String × WireJson)) : Except LibError (Option Time) :=
  match getOr payload "expiresDate" .null with
  | .null => pure none
  | ms => do
    let n ← lib.int ms
    let t ← lib.fromtimestamp n
    pure (some t)

def isNull : WireJson → Bool
  | .null => true
  | _ => false

/-- `_normalize_payload`. -/
def normalizePayload (payload : List (String × WireJson)) :
    Except VerifyError VerifiedTransaction :=
  if bundleMismatch cfg payload then
    throw (.validationFailed "StoreKit transaction bundleId mismatch")
  else do
    let expiresAt ← call (expiresAtOf lib payload)
    match payload.find? fun kv => kv.1 = "transactionId" with
    | none => throw (.validationFailed "StoreKit transaction missing transactionId")
    | some (_, transactionId) => pure ⟨lib.str transactionId,
        lib.str (getOr payload "originalTransactionId" transactionId),
        lib.str (getOr payload "productId" (.str "")), expiresAt,
        !isNull (getOr payload "revocationDate" .null), environmentOf lib cfg payload⟩

/-- `_verify_real_transaction`, from the header. -/
def verifyRealTransaction (jws : String) (header : List (String × WireJson)) :
    Except VerifyError VerifiedTransaction := do
  let (leaf, rest) ← loadCertificateChain lib header
  anchor lib cfg leaf rest
  let leafPubkey ← call (lib.publicKey leaf)
  let payload ← decoded (lib.decodeES256 jws leafPubkey)
  normalizePayload lib cfg payload

/-- `_verify_test_transaction`. -/
def verifyTestTransaction (jws : String) : Except VerifyError VerifiedTransaction := do
  let payload ← decoded (lib.decodeHS256 jws cfg.testSecret)
  normalizePayload lib cfg payload

/-- `str(header.get("alg", ""))`. -/
def algOf (header : List (String × WireJson)) : String := lib.str (getOr header "alg" (.str ""))

/-- `verify`. -/
def verify (jws : String) : Except VerifyError VerifiedTransaction :=
  if jws.toList.count '.' ≠ 2 then
    throw (.validationFailed "StoreKit transaction must be a compact JWS string")
  else do
    let header ← jwsHeader lib jws
    if algOf lib header = "HS256" then
      if cfg.testMode then verifyTestTransaction lib cfg jws
      else throw (.validationFailed "StoreKit JWS signature invalid")
    else verifyRealTransaction lib cfg jws header

end Verify

/-! ## Results of the steps -/

section Results

variable {C K H α β : Type} {lib : Libraries C K H} {cfg : VerifierConfig C}

theorem bind_eq_ok {x : Except VerifyError α} {f : α → Except VerifyError β} {b : β} :
    (x >>= f) = .ok b ↔ ∃ a, x = .ok a ∧ f a = .ok b := by
  cases x with
  | error e => exact ⟨nofun, fun ⟨_, h, _⟩ => nomatch h⟩
  | ok a => exact ⟨fun h => ⟨a, rfl, h⟩, fun ⟨_, ha, h⟩ => Except.ok.inj ha ▸ h⟩

theorem call_eq_ok {x : Except LibError α} {a : α} : call x = .ok a ↔ x = .ok a := by
  cases x with
  | error e => exact ⟨nofun, nofun⟩
  | ok b => exact ⟨fun h => Except.ok.inj h ▸ rfl, fun h => Except.ok.inj h ▸ rfl⟩

/-- The certificate is signed with the key of the issuer. -/
def SignedBy (lib : Libraries C K H) (child issuer : C) : Prop :=
  ∃ hash key, lib.signatureHashAlgorithm child = .ok (some hash) ∧ lib.publicKey issuer = .ok key ∧
    lib.keyType key ≠ .unsupported ∧ lib.verifySignature key child hash = .ok ()

theorem verifySignedBy_ok {child issuer : C} :
    verifySignedBy lib child issuer = .ok () ↔ SignedBy lib child issuer := by
  unfold verifySignedBy SignedBy
  rw [bind_eq_ok]
  constructor
  · rintro ⟨hash, hhash, h⟩
    rw [call_eq_ok] at hhash
    cases hash with
    | none => cases h
    | some hash =>
      obtain ⟨key, hkey, h⟩ := bind_eq_ok.1 h
      rw [call_eq_ok] at hkey
      split at h
      · cases h
      · rename_i htype
        exact ⟨hash, key, hhash, hkey, htype, call_eq_ok.1 h⟩
  · rintro ⟨hash, key, hhash, hkey, htype, h⟩
    refine ⟨some hash, call_eq_ok.2 hhash, bind_eq_ok.2 ⟨key, call_eq_ok.2 hkey, ?_⟩⟩
    rw [if_neg htype]
    exact call_eq_ok.2 h

theorem verifyLinks_ok {chain : List C} :
    verifyLinks lib chain = .ok () ↔ chain.IsChain (SignedBy lib) := by
  induction chain with
  | nil => exact ⟨fun _ => .nil, fun _ => rfl⟩
  | cons child chain ih =>
    cases chain with
    | nil => exact ⟨fun _ => .singleton _, fun _ => rfl⟩
    | cons issuer rest =>
      rw [verifyLinks, bind_eq_ok, List.isChain_cons_cons, ← ih, ← verifySignedBy_ok]
      exact ⟨fun ⟨_, h, h'⟩ => ⟨h, h'⟩, fun h => ⟨(), h⟩⟩

/-- The certificate is a configured root, or signed by one. -/
def Trusted (lib : Libraries C K H) (cfg : VerifierConfig C) (cert : C) : Prop :=
  ∃ root ∈ cfg.roots, lib.publicBytes cert = lib.publicBytes root ∨ SignedBy lib cert root

theorem anchored_iff {cert : C} : anchored lib cfg cert = true ↔ Trusted lib cfg cert := by
  have hbool : ∀ x : Except VerifyError Unit, x.toBool = true ↔ x = .ok () := by
    rintro (e | ⟨⟩)
    · exact ⟨nofun, nofun⟩
    · exact ⟨fun _ => rfl, fun _ => rfl⟩
  simp only [anchored, Bool.or_eq_true, List.contains_eq_mem, decide_eq_true_eq, List.mem_map,
    List.any_eq_true, hbool, verifySignedBy_ok, Trusted]
  constructor
  · rintro (⟨root, hroot, he⟩ | ⟨root, hroot, hs⟩)
    · exact ⟨root, hroot, .inl he.symm⟩
    · exact ⟨root, hroot, .inr hs⟩
  · rintro ⟨root, hroot, he | hs⟩
    · exact .inl ⟨root, hroot, he.symm⟩
    · exact .inr ⟨root, hroot, hs⟩

theorem decoded_eq_ok {x : Except LibError (List (String × WireJson))}
    {payload : List (String × WireJson)} : decoded x = .ok payload ↔ x = .ok payload := by
  rcases x with (_ | _ | _ | _ | _ | _ | _) | p
  case ok => exact ⟨fun h => Except.ok.inj h ▸ rfl, fun h => Except.ok.inj h ▸ rfl⟩
  all_goals exact ⟨nofun, nofun⟩

end Results

/-! ## Soundness -/

section Soundness

variable {C K H : Type} {lib : Libraries C K H} {cfg : VerifierConfig C} {jws : String}
variable {v : VerifiedTransaction} {payload : List (String × WireJson)}

/-- The payload, decoded with the key of the leaf and the algorithm ES256. -/
def signedPayload (lib : Libraries C K H) (jws : String) :
    Except VerifyError (List (String × WireJson)) := do
  let header ← jwsHeader lib jws
  let (leaf, _) ← loadCertificateChain lib header
  let key ← call (lib.publicKey leaf)
  decoded (lib.decodeES256 jws key)

/-- The chain of the header: each certificate is signed by the next, the last is trusted. -/
def ChainTrusted (lib : Libraries C K H) (cfg : VerifierConfig C) (jws : String) : Prop :=
  ∃ header leaf rest, jwsHeader lib jws = .ok header ∧
    loadCertificateChain lib header = .ok (leaf, rest) ∧
    (leaf :: rest).IsChain (SignedBy lib) ∧ Trusted lib cfg (rest.getLastD leaf)

/-- What an accepted transaction should have passed. -/
structure Sound (lib : Libraries C K H) (cfg : VerifierConfig C) (jws : String) : Prop where
  chain : ChainTrusted lib cfg jws
  signed : ∃ payload, signedPayload lib jws = .ok payload
  bundle : ∀ payload, signedPayload lib jws = .ok payload → cfg.bundleId ≠ "" →
    getOr payload "bundleId" .null = .str cfg.bundleId
  environment : ∀ payload, signedPayload lib jws = .ok payload →
    environmentOf lib cfg payload = lib.lower cfg.environment

/-- The payload names no environment, or the one that is configured. -/
def NamesEnvironment (lib : Libraries C K H) (cfg : VerifierConfig C)
    (payload : List (String × WireJson)) : Prop :=
  ∀ kv, payload.find? (fun kv => kv.1 = "environment") = some kv →
    lib.lower (lib.str kv.2) = lib.lower cfg.environment

theorem environment_iff (hstr : ∀ s, lib.str (.str s) = s) :
    environmentOf lib cfg payload = lib.lower cfg.environment ↔
      NamesEnvironment lib cfg payload := by
  unfold environmentOf getOr NamesEnvironment
  cases payload.find? fun kv => kv.1 = "environment" with
  | none => simp [hstr]
  | some kv => simp

theorem bundle_of_mismatch (h : bundleMismatch cfg payload = false) (hb : cfg.bundleId ≠ "") :
    getOr payload "bundleId" .null = .str cfg.bundleId := by
  unfold bundleMismatch at h
  rw [Bool.and_eq_false_iff] at h
  rcases h with h | h
  · exact absurd (of_decide_eq_false h) (not_not_intro hb)
  · split at h
    · rename_i s hs
      rw [hs, not_not.1 (of_decide_eq_false h)]
    · cases h

/-- The steps that an accepted transaction has passed. -/
theorem verify_steps (htest : cfg.testMode = false) (hxcode : cfg.trustAnyXcodeCert = false)
    (h : verify lib cfg jws = .ok v) : ChainTrusted lib cfg jws ∧ ∃ payload,
      signedPayload lib jws = .ok payload ∧ normalizePayload lib cfg payload = .ok v := by
  unfold verify at h
  split at h
  · cases h
  obtain ⟨header, hheader, h⟩ := bind_eq_ok.1 h
  split at h
  · rw [htest] at h
    cases h
  obtain ⟨⟨leaf, rest⟩, hchain, h⟩ := bind_eq_ok.1 h
  obtain ⟨⟨⟩, hanchor, h⟩ := bind_eq_ok.1 h
  obtain ⟨key, hkey, h⟩ := bind_eq_ok.1 h
  obtain ⟨payload, hpayload, h⟩ := bind_eq_ok.1 h
  refine ⟨⟨header, leaf, rest, hheader, hchain, ?_⟩, payload, ?_, h⟩
  · rw [anchor, hxcode, Bool.false_and, if_neg Bool.false_ne_true] at hanchor
    split at hanchor
    · cases hanchor
    · obtain ⟨⟨⟩, hlinks, hroot⟩ := bind_eq_ok.1 hanchor
      split at hroot
      · rename_i htrusted
        exact ⟨verifyLinks_ok.1 hlinks, anchored_iff.1 htrusted⟩
      · cases hroot
  · exact bind_eq_ok.2 ⟨header, hheader, bind_eq_ok.2 ⟨(leaf, rest), hchain,
      bind_eq_ok.2 ⟨key, hkey, hpayload⟩⟩⟩

/-- **Soundness of the verification.** With the test flags off, what `verify` accepts has a chain
of certificates up to a root, a payload that is signed by the leaf, and the configured bundle. The
environment of the payload is not looked at. -/
theorem storekit_sound (hstr : ∀ s, lib.str (.str s) = s) (htest : cfg.testMode = false)
    (hxcode : cfg.trustAnyXcodeCert = false) (h : verify lib cfg jws = .ok v) :
    Sound lib cfg jws ↔
      ∀ payload, signedPayload lib jws = .ok payload → NamesEnvironment lib cfg payload := by
  obtain ⟨hchain, payload, hpayload, hnormal⟩ := verify_steps htest hxcode h
  constructor
  · exact fun hsound p hp => (environment_iff hstr).1 (hsound.environment p hp)
  · intro hnames
    refine ⟨hchain, ⟨payload, hpayload⟩, fun p hp hb => ?_,
      fun p hp => (environment_iff hstr).2 (hnames p hp)⟩
    rw [hpayload] at hp
    obtain rfl := Except.ok.inj hp
    unfold normalizePayload at hnormal
    split at hnormal
    · cases hnormal
    · rename_i hmatch
      exact bundle_of_mismatch (by simpa using hmatch) hb

end Soundness

/-- The payload of a purchase in an environment. -/
def purchaseIn (environment : String) : List (String × WireJson) :=
  [("transactionId", .str "1"), ("bundleId", .str "app"), ("environment", .str environment)]

/-- Libraries that read one transaction: a leaf 1, signed by the root 2, signs the payload. -/
def oneTransaction (payload : List (String × WireJson)) : Libraries ℕ ℕ Unit where
  urlsafeB64decode _ := .ok []
  b64decode s := .ok (if s = "leaf" then [1] else [2])
  loads _ := .ok (.obj [("alg", .str "ES256"), ("x5c", .arr [.str "leaf", .str "root"])])
  loadDerX509Certificate der := .ok (if der = [1] then 1 else 2)
  publicBytes c := [UInt8.ofNat c]
  signatureHashAlgorithm _ := .ok (some ())
  publicKey c := .ok c
  keyType _ := .ellipticCurve
  verifySignature key cert _ := if key = 2 ∧ cert = 1 then .ok () else .error .invalidSignature
  commonNames _ := .ok []
  decodeES256 _ key := if key = 1 then .ok payload else .error .invalidToken
  decodeHS256 _ _ := .error .invalidToken
  str j := match j with
    | .str s => s
    | _ => ""
  lower s := s
  int j := match j with
    | .int n => .ok n
    | _ => .error .typeError
  fromtimestamp n := .ok (n * 1000)

/-- An app in production, with the flags off. -/
def production : VerifierConfig ℕ := ⟨"app", "production", [2], "", false, false⟩

/-- A purchase in production is sound. -/
theorem storekit_sound_production :
    Sound (oneTransaction (purchaseIn "production")) production "header.payload.signature" ↔
      ∀ payload, signedPayload (oneTransaction (purchaseIn "production"))
        "header.payload.signature" = .ok payload →
        NamesEnvironment (oneTransaction (purchaseIn "production")) production payload :=
  storekit_sound (v := ⟨"1", "1", "", none, false, "production"⟩) (fun _ => rfl) rfl rfl rfl

/-- A purchase in the sandbox is accepted in production. -/
theorem storekit_sound_fails : ∃ v,
    verify (oneTransaction (purchaseIn "sandbox")) production "header.payload.signature" = .ok v ∧
      ¬Sound (oneTransaction (purchaseIn "sandbox")) production "header.payload.signature" := by
  refine ⟨⟨"1", "1", "", none, false, "sandbox"⟩, rfl, fun h => ?_⟩
  have henv := h.environment (purchaseIn "sandbox") rfl
  exact absurd henv (by decide)

/-! ## Errors -/

/-- A value, or a `ValidationFailedError`. -/
def Handled {α : Type} : Except VerifyError α → Prop
  | .ok _ => True
  | .error (.validationFailed _) => True
  | .error (.lib _) => False

section Errors

variable {C K H α β : Type} {lib : Libraries C K H} {cfg : VerifierConfig C} {jws : String}
variable {header payload : List (String × WireJson)}

/-- A sequence of two steps. -/
theorem handled_bind {x : Except VerifyError α} {f : α → Except VerifyError β} :
    Handled (x >>= f) ↔ Handled x ∧ ∀ a, x = .ok a → Handled (f a) := by
  rcases x with (message | e) | a
  · exact ⟨fun _ => ⟨trivial, nofun⟩, fun _ => trivial⟩
  · exact ⟨False.elim, fun h => h.1⟩
  · exact ⟨fun h => ⟨trivial, fun b hb => Except.ok.inj hb ▸ h⟩, fun h => h.2 a rfl⟩

theorem handled_call {x : Except LibError α} : Handled (call x) ↔ ∃ a, x = .ok a := by
  cases x with
  | error e => exact ⟨False.elim, nofun⟩
  | ok a => exact ⟨fun _ => ⟨a, rfl⟩, fun _ => trivial⟩

/-- The header is no document that is nested too deep. -/
def HeaderReads (lib : Libraries C K H) (jws : String) : Prop :=
  ∀ e, headerDocument lib jws = .error e → e = .valueError

theorem handled_jwsHeader : Handled (jwsHeader lib jws) ↔ HeaderReads lib jws := by
  unfold jwsHeader HeaderReads
  cases headerDocument lib jws with
  | error e =>
    cases e with
    | valueError => exact ⟨fun _ _ h => Except.error.inj h ▸ rfl, fun _ => trivial⟩
    | _ => exact ⟨False.elim, fun h => nomatch h _ rfl⟩
  | ok j => cases j <;> exact ⟨fun _ => nofun, fun _ => trivial⟩

/-- Every entry of `x5c` is the text of a certificate. -/
def CertificatesLoad (lib : Libraries C K H) (header : List (String × WireJson)) : Prop :=
  ∀ certs, (WireJson.obj header).get "x5c" = .arr certs →
    ∀ cert ∈ certs, ∃ c, loadCertificate lib cert = .ok c

theorem exists_mapM_ok {f : α → Except LibError β} {l : List α} :
    (∃ l', l.mapM f = .ok l') ↔ ∀ a ∈ l, ∃ b, f a = .ok b := by
  induction l with
  | nil => exact ⟨fun _ _ h => (nomatch h), fun _ => ⟨[], rfl⟩⟩
  | cons a l ih =>
    rw [List.forall_mem_cons, ← ih, List.mapM_cons]
    cases f a with
    | error e => exact ⟨nofun, nofun⟩
    | ok b =>
      cases l.mapM f with
      | error e => exact ⟨nofun, nofun⟩
      | ok l' => exact ⟨fun _ => ⟨⟨b, rfl⟩, l', rfl⟩, fun _ => ⟨b :: l', rfl⟩⟩

theorem handled_loadCertificateChain :
    Handled (loadCertificateChain lib header) ↔ CertificatesLoad lib header := by
  unfold loadCertificateChain CertificatesLoad
  split
  · rename_i cert certs hx5c
    rw [handled_bind, handled_call]
    simp only [handled_bind, handled_call, call_eq_ok, exists_mapM_ok, hx5c]
    constructor
    · rintro ⟨⟨c, hc⟩, hrest⟩ _ h
      obtain rfl := WireJson.arr.inj h
      exact List.forall_mem_cons.2 ⟨⟨c, hc⟩, (hrest c hc).1⟩
    · intro h
      obtain ⟨hc, hrest⟩ := List.forall_mem_cons.1 (h _ rfl)
      exact ⟨hc, fun _ _ => ⟨hrest, fun _ _ => trivial⟩⟩
  · rename_i hnot
    refine ⟨fun _ certs hcerts cert hcert => ?_, fun _ => trivial⟩
    cases certs with
    | nil => cases hcert
    | cons c cs => exact absurd hcerts (hnot c cs)

/-- The check of a link ends with the signature found good, or with a reason to refuse that the
verifier states itself. -/
def LinkReads (lib : Libraries C K H) (child issuer : C) : Prop :=
  ∃ hash, lib.signatureHashAlgorithm child = .ok hash ∧ ∀ h, hash = some h →
    ∃ key, lib.publicKey issuer = .ok key ∧
      (lib.keyType key ≠ .unsupported → lib.verifySignature key child h = .ok ())

theorem handled_verifySignedBy {child issuer : C} :
    Handled (verifySignedBy lib child issuer) ↔ LinkReads lib child issuer := by
  unfold verifySignedBy LinkReads
  rw [handled_bind, handled_call]
  simp only [call_eq_ok]
  cases lib.signatureHashAlgorithm child with
  | error e => exact ⟨fun h => (nomatch h.1), nofun⟩
  | ok hash =>
    cases hash with
    | none =>
      exact ⟨fun _ => ⟨none, rfl, nofun⟩, fun _ => ⟨⟨_, rfl⟩, fun a ha => Except.ok.inj ha ▸ trivial⟩⟩
    | some h =>
      simp only [Except.ok.injEq, exists_eq', true_and, forall_eq', Option.some.injEq,
        exists_eq_left', handled_bind, handled_call, call_eq_ok]
      cases lib.publicKey issuer with
      | error e => exact ⟨fun h => (nomatch h.1), nofun⟩
      | ok key =>
        simp only [Except.ok.injEq, exists_eq', true_and, forall_eq', exists_eq_left']
        by_cases htype : lib.keyType key = .unsupported
        · simp only [htype, if_true, ne_eq, not_true_eq_false, false_implies, iff_true]
          trivial
        · simp only [htype, if_false, handled_call, ne_eq, not_false_eq_true, true_implies]
          exact ⟨fun ⟨⟨⟩, h⟩ => h, fun h => ⟨(), h⟩⟩

/-- So do the links of a chain, as far as they are checked. -/
def LinksRead (lib : Libraries C K H) : List C → Prop
  | child :: issuer :: rest => LinkReads lib child issuer ∧
    (SignedBy lib child issuer → LinksRead lib (issuer :: rest))
  | _ => True

theorem handled_verifyLinks {chain : List C} :
    Handled (verifyLinks lib chain) ↔ LinksRead lib chain := by
  induction chain with
  | nil => exact ⟨fun _ => trivial, fun _ => trivial⟩
  | cons child chain ih =>
    cases chain with
    | nil => exact ⟨fun _ => trivial, fun _ => trivial⟩
    | cons issuer rest =>
      rw [verifyLinks, handled_bind, handled_verifySignedBy, LinksRead, ← ih, ← verifySignedBy_ok]
      exact and_congr_right fun _ => ⟨fun h => h (), fun h _ => h⟩

/-- The chain is not checked, or its links read. -/
def AnchorReads (lib : Libraries C K H) (cfg : VerifierConfig C) (leaf : C) (rest : List C) : Prop :=
  (cfg.trustAnyXcodeCert && leafCnMatchesXcode lib leaf) = true ∨ cfg.roots = [] ∨
    LinksRead lib (leaf :: rest)

theorem handled_anchor {leaf : C} {rest : List C} :
    Handled (anchor lib cfg leaf rest) ↔ AnchorReads lib cfg leaf rest := by
  unfold anchor AnchorReads
  by_cases hxcode : (cfg.trustAnyXcodeCert && leafCnMatchesXcode lib leaf) = true
  · rw [if_pos hxcode]
    exact ⟨fun _ => .inl hxcode, fun _ => trivial⟩
  rw [if_neg hxcode]
  by_cases hroots : cfg.roots = []
  · rw [hroots, List.isEmpty_nil, if_pos rfl]
    exact ⟨fun _ => .inr (.inl rfl), fun _ => trivial⟩
  · rw [if_neg (by simpa using hroots), verifyChain, handled_bind, handled_verifyLinks]
    have hend : ∀ b : Bool, Handled (if b = true then (pure () : Except VerifyError Unit)
        else throw (.validationFailed "StoreKit certificate chain not anchored to a trusted root")) := by
      rintro (_ | _) <;> exact trivial
    exact ⟨fun h => .inr (.inr h.1), fun h => ⟨(h.resolve_left hxcode).resolve_left hroots,
      fun _ _ => hend _⟩⟩

/-- Decoding gives a payload, or an invalid token. -/
def Decodes (x : Except LibError (List (String × WireJson))) : Prop :=
  ∀ e, x = .error e → e = .invalidToken

theorem handled_decoded {x : Except LibError (List (String × WireJson))} :
    Handled (decoded x) ↔ Decodes x := by
  unfold decoded Decodes
  cases x with
  | error e =>
    cases e with
    | invalidToken => exact ⟨fun _ _ h => Except.error.inj h ▸ rfl, fun _ => trivial⟩
    | _ => exact ⟨False.elim, fun h => nomatch h _ rfl⟩
  | ok payload => exact ⟨fun _ => nofun, fun _ => trivial⟩

/-- The expiry of the payload is missing or can be read, unless the bundle is another. -/
def PayloadReads (lib : Libraries C K H) (cfg : VerifierConfig C)
    (payload : List (String × WireJson)) : Prop :=
  bundleMismatch cfg payload = true ∨ ∃ t, expiresAtOf lib payload = .ok t

theorem handled_normalizePayload :
    Handled (normalizePayload lib cfg payload) ↔ PayloadReads lib cfg payload := by
  unfold normalizePayload PayloadReads
  by_cases hbundle : bundleMismatch cfg payload = true
  · rw [if_pos hbundle]
    exact ⟨fun _ => .inl hbundle, fun _ => trivial⟩
  · rw [if_neg hbundle, handled_bind, handled_call]
    refine ⟨fun h => .inr h.1, fun h => ⟨h.resolve_left hbundle, fun t _ => ?_⟩⟩
    cases payload.find? fun kv => kv.1 = "transactionId" with
    | none => exact trivial
    | some kv => exact trivial

/-- The token of a transaction decodes, and its payload reads. -/
def TokenReads (lib : Libraries C K H) (cfg : VerifierConfig C)
    (x : Except LibError (List (String × WireJson))) : Prop :=
  Decodes x ∧ ∀ payload, x = .ok payload → PayloadReads lib cfg payload

theorem handled_token {x : Except LibError (List (String × WireJson))} :
    Handled (decoded x >>= normalizePayload lib cfg) ↔ TokenReads lib cfg x := by
  simp only [handled_bind, handled_decoded, decoded_eq_ok, handled_normalizePayload, TokenReads]

/-- The certificates load; the chain reads; and where it is trusted, the leaf has a key with which
the token reads. -/
def RealReads (lib : Libraries C K H) (cfg : VerifierConfig C) (jws : String)
    (header : List (String × WireJson)) : Prop :=
  CertificatesLoad lib header ∧ ∀ leaf rest, loadCertificateChain lib header = .ok (leaf, rest) →
    AnchorReads lib cfg leaf rest ∧ (anchor lib cfg leaf rest = .ok () →
      ∃ key, lib.publicKey leaf = .ok key ∧ TokenReads lib cfg (lib.decodeES256 jws key))

theorem handled_verifyRealTransaction :
    Handled (verifyRealTransaction lib cfg jws header) ↔ RealReads lib cfg jws header := by
  unfold verifyRealTransaction RealReads
  rw [handled_bind, handled_loadCertificateChain]
  refine and_congr_right fun _ => ?_
  simp only [Prod.forall, handled_bind (α := Unit), handled_anchor]
  refine forall₃_congr fun leaf rest _ => and_congr_right fun _ => ?_
  have hkey : Handled (call (lib.publicKey leaf) >>= fun key =>
      decoded (lib.decodeES256 jws key) >>= normalizePayload lib cfg) ↔
      ∃ key, lib.publicKey leaf = .ok key ∧ TokenReads lib cfg (lib.decodeES256 jws key) := by
    rw [handled_bind, handled_call]
    simp only [call_eq_ok, handled_token]
    exact ⟨fun ⟨⟨key, hkey⟩, h⟩ => ⟨key, hkey, h key hkey⟩,
      fun ⟨key, hkey, h⟩ => ⟨⟨key, hkey⟩, fun key' hkey' => by
        rw [hkey] at hkey'
        exact Except.ok.inj hkey' ▸ h⟩⟩
  exact ⟨fun h ha => hkey.1 (h () ha), fun h ⟨⟩ ha => hkey.2 (h ha)⟩

/-- The text has not two dots, or: its header reads, and so does what the algorithm selects. -/
def InputReads (lib : Libraries C K H) (cfg : VerifierConfig C) (jws : String) : Prop :=
  jws.toList.count '.' = 2 → HeaderReads lib jws ∧ ∀ header, jwsHeader lib jws = .ok header →
    if algOf lib header = "HS256" then
      cfg.testMode = true → TokenReads lib cfg (lib.decodeHS256 jws cfg.testSecret)
    else RealReads lib cfg jws header

/-- **The errors of the verifier.** -/
theorem storekit_errors : Handled (verify lib cfg jws) ↔ InputReads lib cfg jws := by
  unfold verify InputReads
  by_cases hdots : jws.toList.count '.' = 2
  · rw [if_neg (not_not_intro hdots), handled_bind, handled_jwsHeader]
    refine Iff.trans ?_ (forall_prop_of_true hdots).symm
    refine and_congr_right fun _ => forall₂_congr fun header _ => ?_
    split
    · cases cfg.testMode with
      | true => exact ⟨fun h _ => handled_token.1 h, fun h => handled_token.2 (h rfl)⟩
      | false => exact ⟨fun _ => nofun, fun _ => trivial⟩
    · exact handled_verifyRealTransaction
  · rw [if_pos hdots]
    exact ⟨fun _ h => absurd h hdots, fun _ => trivial⟩

end Errors

/-- Libraries for a header whose first entry of `x5c` is no certificate. -/
def noCertificate : Libraries ℕ ℕ Unit :=
  { oneTransaction (purchaseIn "production") with
    loadDerX509Certificate := fun _ => .error .valueError }

/-- The `ValueError` of the certificate is not caught. -/
theorem storekit_errors_fails : verify noCertificate production "header.payload.signature" =
    .error (.lib .valueError) ∧
      ¬Handled (verify noCertificate production "header.payload.signature") :=
  ⟨rfl, id⟩

end ChatBackend.Billing.StoreKitVerifier
