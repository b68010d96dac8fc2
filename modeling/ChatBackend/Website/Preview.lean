import ChatBackend.Website.Isolation
import ChatBackend.Website.SignedUrl

/-!
# Previews of a site

The preview tool gives out signed links, and the endpoint of the previews answers to anybody who has a
link. `preview_served`: until it expires, a link shows the files of its project as they were last
written, whatever is called in between, and nothing after that. `preview_traced`: what the endpoint shows
was written by the user to whom a link for it was given. The tokens that the tool builds are those of the
signed links (`buildToken_links`).
-/

namespace ChatBackend.Website

open Chat (ToolName ToolExecution)

/-! ## The texts of the links -/

section Texts

theorem toList_loop (b : ByteArray) (i : ℕ) (r : List UInt8) :
    ByteArray.toList.loop b i r = r.reverse ++ b.data.toList.drop i := by
  induction h : b.size - i generalizing i r with
  | zero =>
    rw [ByteArray.toList.loop, if_neg (by omega), List.drop_of_length_le, List.append_nil]
    rw [Array.length_toList]
    exact Nat.le_of_sub_eq_zero h
  | succ n ih =>
    have hi : i < b.data.toList.length := by
      rw [Array.length_toList]
      exact Nat.lt_of_sub_pos (h ▸ Nat.succ_pos n)
    have hget : b.get! i = b.data.toList[i] := by
      show b.data[i]! = _
      rw [Array.length_toList] at hi
      rw [getElem!_pos b.data i hi, Array.getElem_toList]
    rw [ByteArray.toList.loop, if_pos (by omega), ih (i + 1) (b.get! i :: r) (by omega),
      List.drop_eq_getElem_cons hi, List.reverse_cons, hget]
    simp

/-- The bytes of a text. -/
theorem utf8_ofList (text : List Char) : utf8 (String.ofList text) = SignedUrl.encodeUtf8 text := by
  rw [utf8, SignedUrl.encodeUtf8, ByteArray.toList, toList_loop]
  simp

theorem utf8EncodeChar_ascii {c : Char} (h : c.toNat < 128) :
    String.utf8EncodeChar c = [UInt8.ofNat c.toNat] := by
  have hsize : c.utf8Size = 1 := by
    rw [Char.utf8Size, if_pos]
    exact Nat.le_of_lt_succ h
  rw [String.utf8EncodeChar_eq_singleton hsize]
  rfl

/-- A text in ASCII. -/
theorem encodeUtf8_ascii {text : List Char} {data : List UInt8}
    (h : SignedUrl.encodeAscii text = some data) : SignedUrl.encodeUtf8 text = data := by
  rw [SignedUrl.encodeAscii] at h
  split at h
  · rename_i hall
    cases h
    rw [List.all_eq_true] at hall
    rw [SignedUrl.encodeUtf8, String.toUTF8_eq_toByteArray, String.toByteArray_ofList]
    induction text with
    | nil => rfl
    | cons c text ih =>
      have hc : c.toNat < 128 := of_decide_eq_true (hall c (.head _))
      have htail : text.utf8Encode.data.toList = text.map fun c => UInt8.ofNat c.toNat :=
        ih fun c hc => hall c (.tail _ hc)
      rw [List.utf8Encode_cons, List.utf8Encode_singleton, ByteArray.data_append, Array.toList_append,
        htail, utf8EncodeChar_ascii hc, List.toList_data_toByteArray]
      rfl
  · cases h

theorem digitChar_eq : ∀ d < 10, Decimal.digitChar d = d.digitChar := by decide

theorem natText_eq (n : ℕ) : Integer.natText n = (toString n).toList := by
  rw [Nat.toString_eq_repr, Nat.repr_eq_ofList_toDigits, String.toList_ofList]
  induction n using Nat.strong_induction_on with
  | _ n ih =>
    by_cases hn : n < 10
    · rw [Nat.toDigits_of_lt_base hn, Integer.natText, Nat.log_of_lt hn]
      simp [Decimal.write, Decimal.digits, Nat.mod_eq_of_lt hn, digitChar_eq n hn]
    · have hle : 10 ≤ n := Nat.le_of_not_lt hn
      have hlog : Nat.log 10 n = Nat.log 10 (n / 10) + 1 := Nat.log_of_one_lt_of_le (by decide) hle
      rw [Nat.toDigits_of_base_le (by decide) hle, ← ih (n / 10) (by omega), Integer.natText, hlog,
        Integer.natText, Decimal.write, Decimal.digits, List.map_append, List.map_singleton,
        digitChar_eq _ (Nat.mod_lt n (by decide))]
      rfl

/-- `str(n)` of a number that is no greater than the conversions allow. -/
theorem write_toString {limit n : ℕ} (h : 0 < limit) (hn : n < 10 ^ limit) :
    Integer.write limit n = some (toString n).toList := by
  have hlen : (Integer.natText (n : ℤ).natAbs).length ≤ limit :=
    (Integer.length_natText_le h _).2 hn
  rw [Integer.write, if_pos hlen, Int.natAbs_natCast, natText_eq]
  simp

end Texts

/-! ## Links -/

/-- The settings of the links. -/
def SiteEnv.links (env : SiteEnv) : SignedUrl.Settings :=
  ⟨env.settings.previewUrlSecret, env.settings.previewUrlTtlSeconds⟩

/-- The identifiers are written as UUIDs. -/
def SiteEnv.Writes (env : SiteEnv) (ident : ℕ → Uuid) : Prop :=
  ∀ n, env.uuidText n = String.ofList (uuidStr (ident n))

/-- What a link is made of. -/
structure PreviewLink where
  projectId : Uuid
  token : String

/-- The URL of a file. -/
def PreviewLink.url (env : SiteEnv) (link : PreviewLink) (entry : String) : String :=
  let path := "/v1/preview/" ++ String.ofList (uuidStr link.projectId) ++ "/" ++ link.token ++ "/" ++ entry
  if env.settings.serviceDomain = "" then path else "https://" ++ env.settings.serviceDomain ++ path

/-- `get_preview` for the parts of a URL, at a time. -/
def servePreview (env : SiteEnv) (ident : ℕ → Uuid) (link : PreviewLink) (path : String) (now : ℤ)
    (d : SiteDb) : PreviewResponse :=
  match d.projects.find? fun p => ident p.id = link.projectId with
  | none => .notFound
  | some project => getPreview (fun p o =>
      (SignedUrl.verifyToken env.hmacSha256 env.links (ident p) (ident o) link.token now).toOption)
    project.id path d

/-- What is shown of a file. -/
def shown : Option (List UInt8 × String) → PreviewResponse
  | none => .notFound
  | some (content, contentType) => .ok content contentType

/-- The content that was written last at a spelling of a path. -/
def lastAt (env : SiteEnv) (u : ℕ) (ext raw : String)
    (steps : List (SiteCall × Except KeyError ToolExecution)) : Option (List UInt8 × String) :=
  match normalizeSitePath raw with
  | .error _ => none
  | .ok path => lastContent env u ext path steps

/-- The token that a call gives out. -/
def tokenOf (ident : ℕ → Uuid) (c : SiteCall) (d : SiteDb) : Option SignedUrl.Build :=
  if c.toolName = .sitePreview then
    (d.findProject c.userId c.externalProjectId).map fun p => ⟨ident p.id, ident c.userId, c.now⟩
  else none

/-- The tokens that calls give out, one after another. -/
def tokensOf (env : SiteEnv) (ident : ℕ → Uuid) : List SiteCall → SiteDb → List SignedUrl.Build
  | [], _ => []
  | c :: calls, d => (tokenOf ident c d).toList ++ tokensOf env ident calls (c.perform env d).2

section Links

variable {env : SiteEnv} {ident : ℕ → Uuid} {c : SiteCall} {d d' : SiteDb} {u : ℕ} {ext raw : String}
  {calls : List SiteCall}

/-- **The tokens of the tool** are those of `build_token`. -/
theorem buildToken_links (hw : env.Writes ident) {p o exp : ℕ} {token : String}
    (h : buildToken env p o = some (token, exp))
    (hexp : env.now + env.settings.previewUrlTtlSeconds < 10 ^ SignedUrl.intMaxStrDigits) :
    exp = env.now + env.settings.previewUrlTtlSeconds ∧ env.links.previewUrlSecret ≠ "" ∧
      SignedUrl.buildToken env.hmacSha256 env.links (ident p) (ident o) env.now =
        .ok ⟨token, env.now + env.settings.previewUrlTtlSeconds⟩ := by
  unfold buildToken at h
  simp only at h
  split at h
  · cases h
  rename_i hsecret
  have hsecret : env.links.previewUrlSecret ≠ "" := hsecret
  obtain ⟨htoken, rfl⟩ := Prod.mk.inj (Option.some.inj h)
  refine ⟨rfl, hsecret, ?_⟩
  have hdigits : Integer.write SignedUrl.intMaxStrDigits (env.now + env.links.previewUrlTtlSeconds) =
      some (toString (env.now + env.settings.previewUrlTtlSeconds)).toList := by
    have hcast : (env.now : ℤ) + env.links.previewUrlTtlSeconds =
        (env.now + env.settings.previewUrlTtlSeconds : ℕ) := (Nat.cast_add _ _).symm
    rw [hcast]
    exact write_toString (Nat.succ_pos _) hexp
  obtain ⟨data, hdata⟩ := SignedUrl.exists_encodeAscii hdigits
  have hutf8 : utf8 (toString (env.now + env.settings.previewUrlTtlSeconds)) = data := by
    rw [← String.ofList_toList (s := toString _), utf8_ofList]
    exact encodeUtf8_ascii hdata
  have hkey : utf8 env.settings.previewUrlSecret = env.links.key := by
    rw [← String.ofList_toList (s := env.settings.previewUrlSecret), utf8_ofList]
    rfl
  have hsigned : utf8 (env.uuidText p ++ "|" ++ env.uuidText o ++ "|" ++
      toString (env.now + env.settings.previewUrlTtlSeconds)) =
        SignedUrl.encodeUtf8 (uuidStr (ident p) ++ '|' :: (uuidStr (ident o) ++ '|' ::
          (toString (env.now + env.settings.previewUrlTtlSeconds)).toList)) := by
    rw [← utf8_ofList, hw, hw]
    refine congrArg utf8 (String.toList_injective ?_)
    simp
  have hcanonical := SignedUrl.canonical_eq_ok (p := ident p) (o := ident o) |>.2 ⟨_, hdigits, rfl⟩
  refine (SignedUrl.buildToken_eq_ok hsecret).2 ⟨_, _, data, hcanonical, hdigits, hdata, ?_⟩
  rw [← htoken, hutf8, hkey, hsigned, b64urlEncode, b64urlEncode]
  refine congrArg (SignedUrl.SignedPreview.mk · _) (String.toList_injective ?_)
  simp

/-- A project of a user and a name is there for good. -/
theorem findProject_perform (hd : Tidy d) {p : Project} (hp : d.findProject u ext = some p)
    (c : SiteCall) : Tidy (c.perform env d).2 ∧ (c.perform env d).2.findProject u ext = some p := by
  have hexec : Tidy (c.perform env d).2 ∧ Frame c.userId c.externalProjectId d (c.perform env d).2 :=
    execute_frame c.toolName c.args c.sessionId hd
  obtain ⟨htidy, hframe⟩ := hexec
  refine ⟨htidy, ?_⟩
  by_cases hkey : (u, ext) = (c.userId, c.externalProjectId)
  · obtain ⟨rfl, rfl⟩ := Prod.mk.inj hkey
    exact hframe.own p hp
  · have hget : ∀ d : SiteDb, d.findProject u ext = Keyed.get Project.key
        (d.projects.filter fun p => p.key ≠ (c.userId, c.externalProjectId)) (u, ext) := by
      intro d
      rw [SiteDb.findProject, Keyed.get, Keyed.get, List.find?_filter]
      congr 1
      funext q
      by_cases hq : q.key = (u, ext)
      · simp [hq, hkey]
      · simp [hq]
    rw [hget, hframe.projects, ← hget]
    exact hp

theorem findProject_run (hd : Tidy d) {p : Project} (hp : d.findProject u ext = some p) :
    (run env calls d).2.findProject u ext = some p := by
  induction calls generalizing d with
  | nil => exact hp
  | cons c calls ih =>
    have hstep : Tidy (c.perform env d).2 ∧ (c.perform env d).2.findProject u ext = some p :=
      findProject_perform hd hp c
    exact ih hstep.1 hstep.2

theorem tidy_perform (hd : Tidy d) (c : SiteCall) : Tidy (c.perform env d).2 :=
  (execute_frame c.toolName c.args c.sessionId hd).1

/-- A token is given out for a project that is there for good. -/
theorem mem_tokensOf {b : SignedUrl.Build} (hd : Tidy d) (hb : b ∈ tokensOf env ident calls d) :
    ∃ c ∈ calls, c.toolName = .sitePreview ∧ b.now = c.now ∧ ∃ p,
      (run env calls d).2.findProject c.userId c.externalProjectId = some p ∧ b.projectId = ident p.id := by
  induction calls generalizing d with
  | nil => cases hb
  | cons c calls ih =>
    have htidy : Tidy (c.perform env d).2 := tidy_perform hd c
    obtain hb | hb := List.mem_append.1 hb
    · rw [Option.mem_toList, tokenOf] at hb
      split at hb
      · rename_i htool
        obtain ⟨p, hp, rfl⟩ := Option.map_eq_some_iff.1 hb
        exact ⟨c, .head _, htool, rfl, p,
          findProject_run htidy (findProject_perform hd hp c).2, rfl⟩
      · cases hb
    · obtain ⟨c', hc', hrest⟩ := ih htidy hb
      exact ⟨c', .tail _ hc', hrest⟩

theorem run_append (before after : List SiteCall) (d : SiteDb) :
    run env (before ++ after) d = ((run env before d).1 ++ (run env after (run env before d).2).1,
      (run env after (run env before d).2).2) := by
  induction before generalizing d with
  | nil => rfl
  | cons c before ih => simp only [List.cons_append, run, ih]

theorem Good.tidy {settings : SiteSettings} (h : Good settings d) : Tidy d :=
  ⟨h.projectIds, h.projects, h.owners⟩

/-- The endpoint, for a link of a project. -/
theorem servePreview_eq {project : Project} {link : PreviewLink} {now : ℤ}
    (hident : ∀ p ∈ d.projects, ∀ q ∈ d.projects, ident p.id = ident q.id → p = q)
    (hproject : d.findProject u ext = some project) (hlink : ident project.id = link.projectId) :
    servePreview env ident link raw now d = getPreview (fun p o =>
      (SignedUrl.verifyToken env.hmacSha256 env.links (ident p) (ident o) link.token now).toOption)
      project.id raw d := by
  have hmem := (Keyed.mem_of_get hproject).1
  rw [servePreview]
  cases hfind : d.projects.find? fun p => ident p.id = link.projectId with
  | none => exact absurd hlink (by simpa using List.find?_eq_none.1 hfind project hmem)
  | some q =>
    have hq : ident q.id = link.projectId := by simpa using List.find?_some hfind
    obtain rfl := hident q (List.mem_of_find?_eq_some hfind) project hmem (hq.trans hlink.symm)
    rfl

/-- What the endpoint shows with a token that is valid. -/
theorem Good.shown {settings : SiteSettings} (hd : Good settings d) {project : Project}
    (hproject : d.findProject u ext = some project) {verify : ℕ → ℕ → Option Bool}
    (hverify : verify project.id u = some true)
    {steps : List (SiteCall × Except KeyError ToolExecution)}
    (hlast : ∀ path, d.contents u ext path = lastContent env u ext path steps) :
    Website.getPreview verify project.id raw d = Website.shown (lastAt env u ext raw steps) := by
  rw [lastAt]
  cases hpath : normalizeSitePath raw with
  | ok path =>
    rw [hd.getPreview hproject hpath hverify, hlast]
    show _ = Website.shown (lastContent env u ext path steps)
    cases lastContent env u ext path steps <;> rfl
  | error message =>
    obtain ⟨hmem, hkey⟩ := Keyed.mem_of_get hproject
    have huser : project.userId = u := (Prod.mk.inj hkey).1
    have hfind : Keyed.get Project.id d.projects project.id = some project :=
      Keyed.get_of_mem hd.projects hmem
    rw [Website.getPreview, hfind]
    simp only [huser, hverify, Website.readFile, hpath]
    rfl

/-- What the endpoint shows with a token that is not valid. -/
theorem getPreview_refused {settings : SiteSettings} (hd : Good settings d) {project : Project}
    (hproject : d.findProject u ext = some project) {verify : ℕ → ℕ → Option Bool}
    (hverify : verify project.id u = some false) :
    Website.getPreview verify project.id raw d = .forbidden := by
  obtain ⟨hmem, hkey⟩ := Keyed.mem_of_get hproject
  have huser : project.userId = u := (Prod.mk.inj hkey).1
  have hfind : Keyed.get Project.id d.projects project.id = some project :=
    Keyed.get_of_mem hd.projects hmem
  rw [Website.getPreview, hfind]
  simp only [huser, hverify]

theorem perform_preview (htool : c.toolName = .sitePreview) : c.perform env d =
    previewTool { env with now := c.now } c.args c.userId c.externalProjectId d := by
  rw [SiteCall.perform, htool]
  rfl

/-- The files after calls from the start. -/
theorem run_empty {steps : List (SiteCall × Except KeyError ToolExecution)}
    (hrun : run env calls .empty = (steps, d)) : Good env.settings d ∧
      ∀ u ext path, d.contents u ext path = lastContent env u ext path steps := by
  have h : Good env.settings (run env calls .empty).2 ∧ ∀ u ext path,
      (run env calls .empty).2.contents u ext path =
        (run env calls .empty).1.foldl (after env u ext path) (SiteDb.empty.contents u ext path) :=
    run_ok Good.empty
  rw [hrun] at h
  exact h

/-- A call that has written this content at a path. -/
structure Wrote (env : SiteEnv) (u : ℕ) (ext path : String) (written : List UInt8 × String)
    (step : SiteCall × Except KeyError ToolExecution) : Prop where
  tool : step.1.toolName = .siteWriteFile
  user : step.1.userId = u
  name : step.1.externalProjectId = ext
  path : step.1.path env = some path
  content : step.1.written env = some written
  accepted : ¬Rejected step.2

/-- What was written last was written. -/
theorem exists_wrote {path : String} {written : List UInt8 × String}
    {steps : List (SiteCall × Except KeyError ToolExecution)}
    (h : lastContent env u ext path steps = some written) :
    ∃ step ∈ steps, Wrote env u ext path written step := by
  induction steps using List.reverseRecOn with
  | nil => cases h
  | append_singleton steps step ih =>
    rw [lastContent, List.foldl_append, List.foldl_cons, List.foldl_nil] at h
    have hearlier : lastContent env u ext path steps = some written →
        ∃ step' ∈ steps ++ [step], Wrote env u ext path written step' := by
      intro hlast
      obtain ⟨step', hmem, hwrote⟩ := ih hlast
      exact ⟨step', List.mem_append_left _ hmem, hwrote⟩
    unfold after at h
    split at h
    · rename_i c result
      split at h
      · rename_i hkey
        split at h
        · rename_i htool
          exact ⟨_, List.mem_append_right _ (List.mem_singleton_self _), htool, hkey.1.symm,
            hkey.2.1.symm, hkey.2.2.symm, h, fun hr => hr⟩
        split at h
        · cases h
        · exact hearlier h
      · exact hearlier h
    · exact hearlier h

variable {steps : List (SiteCall × Except KeyError ToolExecution)}

/-- **A link shows the files of its project until it expires.** Whatever the site tools are called for
before and after the preview, the endpoint answers to the link that the preview has given out with what
was written last at the path that is asked for, and after the expiry with a refusal. -/
theorem preview_served {before later : List SiteCall} {result : Json} (hw : env.Writes ident)
    (hrun : run env (before ++ c :: later) .empty = (steps, d))
    (hident : ∀ p ∈ d.projects, ∀ q ∈ d.projects, ident p.id = ident q.id → p = q)
    (htool : c.toolName = .sitePreview)
    (hexp : c.now + env.settings.previewUrlTtlSeconds < 10 ^ SignedUrl.intMaxStrDigits)
    (hresult : (c.perform env (run env before .empty).2).1 = .ok (.ok result)) :
    ∃ link : PreviewLink, result = .obj [("url", .str (link.url env (previewEntry env c.args))),
        ("expiresAt", .str (String.ofList
          (DateTime.fromTimestamp (c.now + env.settings.previewUrlTtlSeconds)).isoformat))] ∧
      ∀ (raw : String) (now : ℤ), servePreview env ident link raw now d =
        if now ≤ c.now + env.settings.previewUrlTtlSeconds then
          shown (lastAt env c.userId c.externalProjectId raw steps)
        else .forbidden := by
  obtain ⟨hgood, hlast⟩ := run_empty hrun
  have hbefore : Good env.settings (run env before .empty).2 := (run_ok Good.empty).1
  rw [perform_preview htool] at hresult
  unfold previewTool at hresult
  split at hresult
  · cases hresult
  rename_i project hproject
  split at hresult
  · cases hresult
  rename_i token exp hbuild
  have hw' : SiteEnv.Writes { env with now := c.now } ident := hw
  obtain ⟨rfl, hsecret, hlinks⟩ := buildToken_links hw' hbuild hexp
  have hfind : d.findProject c.userId c.externalProjectId = some project := by
    have hfinal : (run env (c :: later) (run env before .empty).2).2 = d := by
      rw [← congrArg Prod.snd (run_append before (c :: later) .empty), hrun]
    rw [← hfinal]
    exact findProject_run hbefore.tidy hproject
  refine ⟨⟨ident project.id, token⟩, ?_, fun raw now => ?_⟩
  · have hdoc := ToolExecution.ok.inj (Except.ok.inj hresult)
    rw [hw] at hdoc
    exact hdoc.symm
  · have hverify : SignedUrl.verifyToken env.hmacSha256 env.links (ident project.id) (ident c.userId)
        token now = .ok (decide (now ≤ c.now + env.settings.previewUrlTtlSeconds)) :=
      SignedUrl.verifyToken_buildToken hsecret hlinks now
    rw [servePreview_eq hident hfind rfl]
    by_cases hlive : now ≤ c.now + env.settings.previewUrlTtlSeconds
    · rw [if_pos hlive]
      refine hgood.shown hfind ?_ (hlast _ _)
      rw [hverify, decide_eq_true hlive]
      rfl
    · rw [if_neg hlive]
      refine getPreview_refused hgood hfind ?_
      rw [hverify, decide_eq_false hlive]
      rfl

/-- No token verifies without a secret. -/
theorem verifyToken_secret {p o : Uuid} {token : String} {now : ℤ}
    (h : SignedUrl.verifyToken env.hmacSha256 env.links p o token now = .ok true) :
    env.links.previewUrlSecret ≠ "" := by
  intro hnone
  have hsign : ∀ exp, SignedUrl.sign env.hmacSha256 env.links p o exp = .error .previewSecretMissing := by
    intro exp
    rw [SignedUrl.sign, SignedUrl.secret, if_pos hnone]
    rfl
  unfold SignedUrl.verifyToken at h
  split at h
  · split at h
    · cases h
    · cases h
    · rw [hsign] at h
      cases h
  · cases h

/-- Where a file is shown, the project of the link exists and its token is verified. -/
theorem verified_of_served {settings : SiteSettings} {link : PreviewLink} {now : ℤ}
    {content : List UInt8} {contentType : String} (hgood : Good settings d)
    (h : servePreview env ident link raw now d = .ok content contentType) :
    ∃ project ∈ d.projects, ident project.id = link.projectId ∧
      SignedUrl.verifyToken env.hmacSha256 env.links (ident project.id) (ident project.userId)
        link.token now = .ok true := by
  rw [servePreview] at h
  split at h
  · cases h
  rename_i project hproject
  have hmem := List.mem_of_find?_eq_some hproject
  refine ⟨project, hmem, by simpa using List.find?_some hproject, ?_⟩
  rw [getPreview, Keyed.get_of_mem hgood.projects hmem] at h
  simp only at h
  split at h
  · cases h
  · cases h
  · rename_i htrue
    cases hv : SignedUrl.verifyToken env.hmacSha256 env.links (ident project.id)
      (ident project.userId) link.token now with
    | error e =>
      rw [hv] at htrue
      cases htrue
    | ok verdict =>
      rw [hv] at htrue
      exact congrArg Except.ok (Option.some.inj htrue)

/-- What is shown was written last at the path. -/
theorem lastContent_of_shown {userId : ℕ} {externalProjectId : String}
    {content : List UInt8} {contentType : String}
    (h : shown (lastAt env userId externalProjectId raw steps) = .ok content contentType) :
    ∃ path, normalizeSitePath raw = .ok path ∧
      lastContent env userId externalProjectId path steps = some (content, contentType) := by
  rw [lastAt] at h
  cases hpath : normalizeSitePath raw with
  | error message =>
    rw [hpath] at h
    cases h
  | ok path =>
    rw [hpath] at h
    cases hcontent : lastContent env userId externalProjectId path steps with
    | none =>
      simp only [hcontent, shown] at h
      cases h
    | some written =>
      simp only [hcontent, shown, PreviewResponse.ok.injEq] at h
      obtain ⟨rfl, rfl⟩ := h
      exact ⟨path, rfl, hcontent⟩

/-- **What is shown was given out and written by the same user.** For calls of the site tools by any
users, and anything that is sent to the endpoint as a link: where it shows a file, and the MAC is ideal
for the tokens that were given out, the preview tool was called within the time to live, by a user for a
project of theirs; the link is one of this project, and the content is what the tool has written last at
this path, for this user and this project. -/
theorem preview_traced {link : PreviewLink} {now : ℤ} {content : List UInt8} {contentType : String}
    (hrun : run env calls .empty = (steps, d))
    (hident : ∀ p ∈ d.projects, ∀ q ∈ d.projects, ident p.id = ident q.id → p = q)
    (hideal : SignedUrl.Ideal (env.hmacSha256 env.links.key)
      ((tokensOf env ident calls .empty).filterMap (SignedUrl.Build.signedText env.links))
      (SignedUrl.presentedMac link.token))
    (h : servePreview env ident link raw now d = .ok content contentType) :
    ∃ c ∈ calls, c.toolName = .sitePreview ∧ now ≤ c.now + env.settings.previewUrlTtlSeconds ∧
      (∃ p, d.findProject c.userId c.externalProjectId = some p ∧ ident p.id = link.projectId) ∧
      ∃ path, normalizeSitePath raw = .ok path ∧
        lastContent env c.userId c.externalProjectId path steps = some (content, contentType) ∧
        ∃ step ∈ steps, Wrote env c.userId c.externalProjectId path (content, contentType) step := by
  obtain ⟨hgood, hlast⟩ := run_empty hrun
  obtain ⟨project, hmem, hlink, hverify⟩ := verified_of_served hgood h
  -- the token was given out, for a project that is still the one of the link
  obtain ⟨b, hb, hproj, -, hlive, -⟩ := SignedUrl.exists_build (verifyToken_secret hverify) hideal hverify
  have hempty : Good env.settings SiteDb.empty := Good.empty
  obtain ⟨c, hc, htool, hnow, p, hp, hbp⟩ := mem_tokensOf hempty.tidy hb
  rw [hrun] at hp
  obtain rfl : p = project := hident p (Keyed.mem_of_get hp).1 project hmem (hbp.symm.trans hproj)
  have huser : p.userId = c.userId := (Prod.mk.inj (Keyed.mem_of_get hp).2).1
  have hshown : shown (lastAt env c.userId c.externalProjectId raw steps) = .ok content contentType := by
    rw [← h, servePreview_eq hident hp hlink]
    refine (hgood.shown hp ?_ (hlast _ _)).symm
    rw [← huser, hverify]
    rfl
  refine ⟨c, hc, htool, ?_, ⟨p, hp, hlink⟩, ?_⟩
  · rw [SignedUrl.Build.expiresAt, hnow] at hlive
    exact hlive
  · obtain ⟨path, hpath, hcontent⟩ := lastContent_of_shown hshown
    exact ⟨path, hpath, hcontent, exists_wrote hcontent⟩

end Links

/-! ## A site and its link -/

/-- Identifiers from 1 on. -/
def sampleIdent (n : ℕ) : Uuid := Fin.ofNat _ (n + 1)

/-- An environment with the MAC of one text. -/
def sampleSite : SiteEnv where
  settings :=
    { previewMaxFileBytes := 8, previewMaxProjectBytes := 10, previewMaxFiles := 2
      previewUrlSecret := "preview-secret", previewUrlTtlSeconds := 3600, serviceDomain := ""
      collation := fun _ _ => true }
  repr := fun _ => ""
  uuidText n := String.ofList (uuidStr (sampleIdent n))
  hmacSha256 := SignedUrl.sampleHmac
  now := 0

/-- The page is written. -/
def writePage (content : String) (now : ℕ) : SiteCall :=
  ⟨.siteWriteFile, .obj [("path", .str "index.html"), ("content", .str content),
    ("contentType", .str "text/html"), ("encoding", .str "utf8")], 1, "site", 5, now⟩

/-- A link is given out. -/
def givePreview : SiteCall := ⟨.sitePreview, .obj [], 1, "site", 5, 1000⟩

/-- The page is written, a link is given out, and the page is written again. -/
def editedPage : List SiteCall := [writePage "aa" 900] ++ givePreview :: [writePage "bb" 1100]

/-- The answer of a call. -/
def answerOf : Except KeyError ToolExecution → Option Json
  | .ok (.ok result) => some result
  | _ => none

theorem answerOf_eq {r : Except KeyError ToolExecution} (h : (answerOf r).isSome = true) :
    ∃ result, r = .ok (.ok result) := by
  unfold answerOf at h
  split at h
  · exact ⟨_, rfl⟩
  · cases h

theorem editedPage_run : run sampleSite editedPage .empty =
    ((run sampleSite editedPage .empty).1, (run sampleSite editedPage .empty).2) := rfl

theorem editedPage_ident : ∀ p ∈ (run sampleSite editedPage .empty).2.projects,
    ∀ q ∈ (run sampleSite editedPage .empty).2.projects,
      sampleIdent p.id = sampleIdent q.id → p = q := by
  have hprojects : (run sampleSite editedPage .empty).2.projects = [⟨0, 1, "site"⟩] := by decide +kernel
  rw [hprojects]
  intro p hp q hq _
  rw [List.mem_singleton.1 hp, List.mem_singleton.1 hq]

/-- The link shows the page as it is now, for an hour. -/
theorem preview_served_edited : ∃ link : PreviewLink,
    servePreview sampleSite sampleIdent link "./index.html" 4600 (run sampleSite editedPage .empty).2 =
        .ok [98, 98] "text/html" ∧
      servePreview sampleSite sampleIdent link "./index.html" 4601 (run sampleSite editedPage .empty).2 =
        .forbidden := by
  have hanswer : (answerOf (givePreview.perform sampleSite
      (run sampleSite [writePage "aa" 900] .empty).2).1).isSome = true := by decide +kernel
  obtain ⟨result, hresult⟩ := answerOf_eq hanswer
  have hlast : lastAt sampleSite 1 "site" "./index.html" (run sampleSite editedPage .empty).1 =
      some ([98, 98], "text/html") := by decide +kernel
  have hexp : givePreview.now + sampleSite.settings.previewUrlTtlSeconds <
      10 ^ SignedUrl.intMaxStrDigits := by
    have hsmall : givePreview.now + sampleSite.settings.previewUrlTtlSeconds < 10 ^ 4 := by decide
    exact Nat.lt_of_lt_of_le hsmall (Nat.pow_le_pow_right (by decide) (by decide))
  have hwrites : sampleSite.Writes sampleIdent := fun _ => rfl
  obtain ⟨link, -, hserve⟩ := preview_served hwrites editedPage_run editedPage_ident rfl hexp hresult
  have hlive : (4600 : ℤ) ≤ givePreview.now + sampleSite.settings.previewUrlTtlSeconds := by decide
  have hdead : ¬(4601 : ℤ) ≤ givePreview.now + sampleSite.settings.previewUrlTtlSeconds := by decide
  refine ⟨link, ?_, (hserve "./index.html" 4601).trans (if_neg hdead)⟩
  exact (hserve "./index.html" 4600).trans ((if_pos hlive).trans (congrArg shown hlast))

/-- The token of `SignedUrl.sampleHmac`: the page that it shows was written by user 1. -/
theorem preview_traced_edited : ∃ c ∈ editedPage, c.toolName = .sitePreview ∧
    ∃ step ∈ (run sampleSite editedPage .empty).1,
      Wrote sampleSite c.userId c.externalProjectId "index.html" ([98, 98], "text/html") step := by
  have hserve : servePreview sampleSite sampleIdent
      ⟨1, "NDYwMA.MzsK4Lgnp1qq6P4NI6jg2FKGkM6awQJ-NxbLpfJlmDY"⟩ "index.html" 4600
      (run sampleSite editedPage .empty).2 = .ok [98, 98] "text/html" := by decide +kernel
  have htokens : tokensOf sampleSite sampleIdent editedPage .empty = [⟨1, 2, 1000⟩] := by
    have hparts : (tokensOf sampleSite sampleIdent editedPage .empty).map
        (fun b => (b.projectId, b.ownerUserId, b.now)) = [(1, 2, 1000)] := by decide +kernel
    obtain ⟨b, hb, hpart⟩ := List.map_eq_singleton_iff.1 hparts
    rw [hb]
    cases b
    cases hpart
    rfl
  have hpath : normalizeSitePath "index.html" = .ok "index.html" := by decide +kernel
  have hideal : SignedUrl.Ideal (sampleSite.hmacSha256 sampleSite.links.key)
      ((tokensOf sampleSite sampleIdent editedPage .empty).filterMap
        (SignedUrl.Build.signedText sampleSite.links))
      (SignedUrl.presentedMac "NDYwMA.MzsK4Lgnp1qq6P4NI6jg2FKGkM6awQJ-NxbLpfJlmDY") := by
    rw [htokens]
    exact SignedUrl.sampleHmac_ideal
  obtain ⟨c, hc, htool, -, -, path, hnorm, -, hwrote⟩ := preview_traced editedPage_run editedPage_ident
    hideal hserve
  rw [hpath] at hnorm
  obtain rfl := Except.ok.inj hnorm
  exact ⟨c, hc, htool, hwrote⟩

end ChatBackend.Website
