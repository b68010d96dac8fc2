import ChatBackend.Chat.Editing

/-!
# Whose rows a request touches

A request names a session and tool calls by their ids, and the ids of other users can be named too.
`tenants_apart` says that the rows of another user are nevertheless as they were in every state that
the request commits, `chat_rows_owned` that no committed row is without its session, and
`temporary_leaves_no_trace` that a temporary chat is in no row of the chat tables and in no audit.

* `Untouched` is the frame of a user; `ChatDb.Owned` is the invariant that it rests on.
* `ChatDb.Scoped` is what the generation of a turn adds.
-/

namespace ChatBackend.Chat

open Prog Wallet Policy

/-! ## The rows of the others -/

/-- The images `l'` are left of `l` when images with an expiry have been swept. -/
structure Swept (l l' : List GeneratedImage) : Prop where
  sublist : l'.Sublist l
  lasting : l'.filter (!·.expires) = l.filter (!·.expires)

/-- The rows of all users but `u` are as they were, but for the images that have been swept. -/
structure Untouched (u : ℕ) (d d' : ChatDb) : Prop where
  sessions : d'.sessions.filter (·.userId ≠ u) = d.sessions.filter (·.userId ≠ u)
  steps : ∀ s ∈ d.sessions, s.userId ≠ u →
    d'.steps.filter (·.sessionId = s.id) = d.steps.filter (·.sessionId = s.id)
  toolCalls : ∀ s ∈ d.sessions, s.userId ≠ u →
    d'.toolCalls.filter (·.sessionId = s.id) = d.toolCalls.filter (·.sessionId = s.id)
  images : Swept (d.images.filter (·.userId ≠ u)) (d'.images.filter (·.userId ≠ u))
  accounts : OthersKept u d.accounts d'.accounts
  trialUsed : ∀ v, v ≠ u → d'.trialUsed v = d.trialUsed v
  keys : ∀ v, v ≠ u → d'.keys v = d.keys v
  subscriptions : d'.subscriptions = d.subscriptions
  expired : d'.expired = d.expired

/-- No other user has a session with this id. -/
def ChatDb.Free (d : ChatDb) (u sid : ℕ) : Prop := ∀ s ∈ d.sessions, s.id = sid → s.userId = u

section Untouched

variable {u sid m g : ℕ} {d d' d'' : ChatDb}

theorem Swept.refl (l : List GeneratedImage) : Swept l l := ⟨.refl l, rfl⟩

theorem Swept.trans {l l' l'' : List GeneratedImage} (h : Swept l l') (h' : Swept l' l'') : Swept l l'' :=
  ⟨h'.sublist.trans h.sublist, h'.lasting.trans h.lasting⟩

theorem Swept.filter {l l' : List GeneratedImage} (h : Swept l l') (p : GeneratedImage → Bool) :
    Swept (l.filter p) (l'.filter p) := by
  refine ⟨h.sublist.filter p, ?_⟩
  have hlasting := congrArg (List.filter p) h.lasting
  simp only [List.filter_filter] at hlasting ⊢
  simpa only [Bool.and_comm] using hlasting

theorem swept_sweep (d : ChatDb) (ids : List ℕ) : Swept d.images (d.sweep ids).images := by
  refine ⟨List.filter_sublist, ?_⟩
  rw [ChatDb.sweep, List.filter_filter]
  refine List.filter_congr fun i _ => ?_
  cases i.expires <;> simp

theorem Sweeps.sweptImages {out : ChatRunOut} (h : Sweeps out d d') : Swept d.images d'.images := by
  cases h with
  | skipped => exact .refl _
  | swept ids => exact swept_sweep d ids

theorem filter_append_of_none {α : Type} {p : α → Bool} {l new : List α} (h : ∀ x ∈ new, p x = false) :
    (l ++ new).filter p = l.filter p := by
  have hnone : new.filter p = [] := List.filter_eq_nil_iff.2 fun x hx => by simp [h x hx]
  rw [List.filter_append, hnone, List.append_nil]

theorem ChatDb.Free.ne (h : d.Free u sid) {s : ChatSession} (hs : s ∈ d.sessions)
    (hu : s.userId ≠ u) : sid ≠ s.id := fun hid => hu (h s hs hid.symm)

namespace Untouched

theorem refl (u : ℕ) (d : ChatDb) : Untouched u d d :=
  ⟨rfl, fun _ _ _ => rfl, fun _ _ _ => rfl, .refl _, .refl _ _, fun _ _ => rfl, fun _ _ => rfl, rfl, rfl⟩

/-- The sessions of the others are still there. -/
theorem mem_sessions (h : Untouched u d d') {s : ChatSession} (hs : s ∈ d.sessions)
    (hu : s.userId ≠ u) : s ∈ d'.sessions := by
  have hmem : s ∈ d'.sessions.filter (·.userId ≠ u) := by
    rw [h.sessions]
    simpa using ⟨hs, hu⟩
  exact List.mem_of_mem_filter hmem

theorem trans (h : Untouched u d d') (h' : Untouched u d' d'') : Untouched u d d'' :=
  ⟨h'.sessions.trans h.sessions,
    fun s hs hu => (h'.steps s (h.mem_sessions hs hu) hu).trans (h.steps s hs hu),
    fun s hs hu => (h'.toolCalls s (h.mem_sessions hs hu) hu).trans (h.toolCalls s hs hu),
    h.images.trans h'.images, h.accounts.trans h'.accounts,
    fun v hv => (h'.trialUsed v hv).trans (h.trialUsed v hv),
    fun v hv => (h'.keys v hv).trans (h.keys v hv), h'.subscriptions.trans h.subscriptions,
    h'.expired.trans h.expired⟩

/-- A sweep may follow. -/
theorem sweeps {out : ChatRunOut} (h : Untouched u d d') (hs : Sweeps out d' d'') : Untouched u d d'' := by
  have hkept := hs.kept
  refine h.trans ⟨by rw [hkept.sessions], fun s _ _ => by rw [hkept.steps],
    fun s _ _ => by rw [hkept.toolCalls], hs.sweptImages.filter _, hkept.accounts ▸ .refl _ _,
    fun v _ => by rw [hkept.trialUsed], fun v _ => by rw [hkept.keys], hkept.subscriptions,
    hkept.expired⟩

/-- Rows of one turn of a user, in a session that no other user has. -/
theorem of_grows (h : d.Grows u sid m d') (hfree : d.Free u sid) : Untouched u d d' := by
  obtain ⟨steps, hsteps, hnewsteps⟩ := h.steps
  obtain ⟨calls, hcalls, hnewcalls⟩ := h.toolCalls
  obtain ⟨images, himages, hnewimages⟩ := h.images
  have hother : d'.images.filter (·.userId ≠ u) = d.images.filter (·.userId ≠ u) := by
    rw [himages]
    exact filter_append_of_none fun i hi => by simp [hnewimages i hi]
  refine ⟨by rw [h.sessions], fun s hs hu => ?_, fun s hs hu => ?_, hother ▸ .refl _, h.accounts,
    h.trialUsed, h.keys, h.subscriptions, h.expired⟩
  · have hne := hfree.ne hs hu
    rw [hsteps]
    exact filter_append_of_none fun st hst => by simp [(hnewsteps st hst).1, hne]
  · have hne := hfree.ne hs hu
    rw [hcalls]
    exact filter_append_of_none fun c hc => by simp [(hnewcalls c hc).1, hne]

/-- The edit of a session that no other user has. -/
theorem truncate (hfree : d.Free u sid) (anchor : ℕ) : Untouched u d (d.truncate sid anchor) := by
  refine { refl u d with steps := fun s hs hu => ?_, toolCalls := fun s hs hu => ?_ }
  · have hne := hfree.ne hs hu
    simp only [ChatDb.truncate, List.filter_filter]
    refine List.filter_congr fun st _ => ?_
    by_cases hst : st.sessionId = s.id <;> simp [hst, hne.symm]
  · have hne := hfree.ne hs hu
    simp only [ChatDb.truncate, List.filter_filter]
    refine List.filter_congr fun c _ => ?_
    by_cases hc : c.sessionId = s.id <;> simp [hc, hne.symm]

theorem addSession {s : ChatSession} (hs : s.userId = u) :
    Untouched u d { d with sessions := d.sessions ++ [s] } := by
  refine { refl u d with sessions := ?_ }
  exact filter_append_of_none fun s' hs' => by simp [List.mem_singleton.1 hs', hs]

/-- The delivery of a result to a call of a session that no other user has. -/
theorem deliver {c : ToolCall} {o : ToolOutcome} (hfree : d.Free u c.sessionId)
    (hc : ∀ c' ∈ d.toolCalls, c'.id = c.id → c'.sessionId = c.sessionId) :
    Untouched u d (d.deliver u g c o) := by
  refine ⟨rfl, fun s hs hu => ?_, fun s hs hu => ?_, .refl _, .applyAll fun op hop => ?_,
    fun _ _ => rfl, fun _ _ => rfl, rfl, rfl⟩
  · have hne := hfree.ne hs hu
    exact filter_append_of_none fun st hst => by simp [List.mem_singleton.1 hst, hne]
  · have hne := hfree.ne hs hu
    have hself : (d.toolCalls.filter (·.sessionId = s.id)).map
        (ToolCall.complete c.id o.status o.body) = d.toolCalls.filter (·.sessionId = s.id) := by
      refine (List.map_congr_left fun c' hc' => ?_).trans (List.map_id _)
      obtain ⟨hmem, hsid⟩ := List.mem_filter.1 hc'
      have hother : c'.id ≠ c.id := fun hid =>
        hne ((hc c' hmem hid).symm.trans (of_decide_eq_true hsid))
      simp [ToolCall.complete, hother]
    simp only [ChatDb.deliver, List.filter_map]
    refine (congrArg (List.map _) (List.filter_congr fun c' _ => ?_)).trans hself
    simp
  · rcases List.mem_append.1 hop with hop | hop
    · split at hop
      · rw [List.mem_singleton.1 hop]
        rfl
      · cases hop
    · rw [List.mem_singleton.1 hop]
      rfl

end Untouched

end Untouched

/-! ## The rows of a turn -/

/-- Rows that a turn may add: a temporary turn adds no step and no call, and its images and audits do
not name its session. -/
structure Delta.Scoped (t : Turn) (Δ : Delta) : Prop where
  steps : ∀ st ∈ Δ.steps, t.temporary = false ∧ st.sessionId = t.sessionId
  toolCalls : ∀ c ∈ Δ.toolCalls, t.temporary = false ∧ c.sessionId = t.sessionId
  images : ∀ i ∈ Δ.images, i.userId = t.userId ∧ i.expires = t.temporary ∧
    i.sessionId = fkSessionId t.temporary t.sessionId
  audit : ∀ e ∈ audits Δ.wallet, t.temporary = true → e.sessionId = none

/-- `d'` has, in addition to `d`, rows that the turn may add. -/
structure ChatDb.Scoped (t : Turn) (d d' : ChatDb) : Prop where
  sessions : d'.sessions = d.sessions
  steps : ∃ new, d'.steps = d.steps ++ new ∧
    ∀ st ∈ new, t.temporary = false ∧ st.sessionId = t.sessionId
  toolCalls : ∃ new, d'.toolCalls = d.toolCalls ++ new ∧
    ∀ c ∈ new, t.temporary = false ∧ c.sessionId = t.sessionId
  images : ∃ new, d'.images = d.images ++ new ∧ ∀ i ∈ new, i.userId = t.userId ∧
    i.expires = t.temporary ∧ i.sessionId = fkSessionId t.temporary t.sessionId
  audit : ∃ new, d'.accounts.audit = d.accounts.audit ++ new ∧
    ∀ e ∈ new, t.temporary = true → e.sessionId = none

section Scoped

variable {llm : LLMAnswer → Prop} {cfg : Config} {t : Turn} {g g' : ℕ} {d d' d'' : ChatDb}
variable {Δ Δ' : Delta}

theorem Delta.Scoped.empty : (∅ : Delta).Scoped t := by
  constructor <;> simp [audits]

theorem Delta.Scoped.append (h : Δ.Scoped t) (h' : Δ'.Scoped t) : (Δ ++ Δ').Scoped t := by
  refine ⟨fun st hst => (List.mem_append.1 hst).elim (h.steps st) (h'.steps st),
    fun c hc => (List.mem_append.1 hc).elim (h.toolCalls c) (h'.toolCalls c),
    fun i hi => (List.mem_append.1 hi).elim (h.images i) (h'.images i), fun e he => ?_⟩
  rw [Delta.append_wallet, audits_append] at he
  exact (List.mem_append.1 he).elim (h.audit e) (h'.audit e)

namespace ChatDb.Scoped

theorem refl (t : Turn) (d : ChatDb) : d.Scoped t d :=
  ⟨rfl, exists_append_self _, exists_append_self _, exists_append_self _, exists_append_self _⟩

theorem trans (h : d.Scoped t d') (h' : d'.Scoped t d'') : d.Scoped t d'' :=
  ⟨h'.sessions.trans h.sessions, exists_append h.steps h'.steps,
    exists_append h.toolCalls h'.toolCalls, exists_append h.images h'.images,
    exists_append h.audit h'.audit⟩

theorem pay {ops : List WalletOp} (h : ∀ e ∈ audits ops, t.temporary = true → e.sessionId = none) :
    d.Scoped t (d.pay ops) :=
  { refl t d with audit := ⟨audits ops, audit_applyAll .., h⟩ }

theorem extend (h : Δ.Scoped t) : d.Scoped t (d.extend Δ) :=
  ⟨rfl, ⟨Δ.steps, rfl, h.steps⟩, ⟨Δ.toolCalls, rfl, h.toolCalls⟩, ⟨Δ.images, rfl, h.images⟩,
    ⟨audits Δ.wallet, audit_applyAll .., h.audit⟩⟩

end ChatDb.Scoped

theorem fkSessionId_temporary (h : t.temporary = true) :
    fkSessionId t.temporary t.sessionId = none := by
  simp [fkSessionId, h]

theorem audits_auditOp (event : EventType) (payload : List (String × Json)) :
    ∀ e ∈ audits [t.auditOp event payload], t.temporary = true → e.sessionId = none := by
  intro e he ht
  obtain rfl : e = _ := by simpa [Turn.auditOp, audits] using he
  exact fkSessionId_temporary ht

theorem audits_chargeOps (a : Accounts) (ledgerId u : ℕ) (amount : Int) (key : IdemKey)
    (metaData : Json) :
    ∀ e ∈ audits (chargeOps a ledgerId u amount key metaData (fkSessionId t.temporary t.sessionId)),
      t.temporary = true → e.sessionId = none := by
  intro e he ht
  have hprovision : audits (provision a u) = [] := by
    unfold provision
    split <;> rfl
  rw [chargeOps, audits_append, hprovision] at he
  obtain rfl : e = _ := by simpa [audits] using he
  exact fkSessionId_temporary ht

theorem stepDelta_scoped (seq : ℕ) (payload : Payload) (usage : Option Usage) :
    (t.stepDelta seq payload usage).Scoped t := by
  refine ⟨fun st hst => ?_, ?_, ?_, ?_⟩
  · cases ht : t.temporary with
    | true => simp [Turn.stepDelta, stepDelta, ht] at hst
    | false =>
      obtain rfl : st = _ := by simpa [Turn.stepDelta, stepDelta, ht] using hst
      exact ⟨rfl, rfl⟩
  all_goals simp [Turn.stepDelta, stepDelta, audits]

theorem BlockRun.Done.scoped {b : BlockRun} (h : b.Done cfg t g) : (b.delta t).Scoped t := by
  obtain ⟨pregen, g₁, d₁, u, g', hg, huse, hid, hargs, hproj, he⟩ := h
  have htemp : ∀ {α : Type} {x : α} {l : List α}, x ∈ (if t.temporary = true then [] else l) →
      t.temporary = false ∧ x ∈ l := by
    intro α x l hx
    cases ht : t.temporary <;> simp_all
  refine ⟨fun st hst => ?_, fun c hc => ?_, fun i hi => ?_, fun e hmem => ?_⟩
  · obtain ⟨ht, hst⟩ := htemp hst
    refine ⟨ht, ?_⟩
    unfold BlockRun.steps at hst
    split at hst
    · rw [List.mem_singleton.1 hst]
    · rw [List.mem_singleton.1 hst]
    · cases hst
  · obtain ⟨ht, hc⟩ := htemp hc
    exact ⟨ht, by rw [List.mem_singleton.1 hc]; rfl⟩
  · have hi : i ∈ b.image t := hi
    unfold BlockRun.image at hi
    split at hi
    · rw [List.mem_singleton.1 hi]
      exact ⟨rfl, rfl, rfl⟩
    · cases hi
  · rw [BlockRun.delta, audits_append, audits_append] at hmem
    rcases List.mem_append.1 hmem with hmem | hmem
    · rcases List.mem_append.1 hmem with hmem | hmem
      · exact audits_auditOp _ _ e hmem
      · unfold BlockRun.charge at hmem
        split at he <;> rename_i hexec <;> rw [hexec] at hmem
        · cases hmem
        · obtain ⟨-, -, -, -, -, -, -, rfl⟩ := he
          exact audits_chargeOps _ _ _ _ _ _ e hmem
        · cases hmem
    · unfold BlockRun.completedAudit at hmem
      split at hmem
      · exact audits_auditOp _ _ e hmem
      · exact audits_auditOp _ _ e hmem
      · cases hmem

theorem deltas_scoped {bs : List BlockRun} (h : ∀ b ∈ bs, b.Done cfg t g) :
    (deltas t bs).Scoped t := by
  induction bs with
  | nil => exact .empty
  | cons b bs ih =>
    rw [deltas_cons]
    exact (h b (List.mem_cons_self ..)).scoped.append
      (ih fun b' hb' => h b' (List.mem_cons_of_mem _ hb'))

theorem Round.Ok.scoped {r : Round} (h : r.Ok cfg t g d g' d') : (r.delta t).Scoped t :=
  (stepDelta_scoped ..).append (deltas_scoped h.done)

theorem roundsDelta_scoped {provider : Provider} {att : Option PreparedAttachments}
    {rs : List Round} {mem mem' : ChatMem}
    (h : Generated llm cfg t provider att g d mem rs g' d' mem') : (roundsDelta t rs).Scoped t := by
  induction h with
  | start => exact .empty
  | round h hr _ _ _ ih =>
    rw [roundsDelta_append]
    exact ih.append hr.scoped

theorem Turn.ended_scoped (t : Turn) (g : ℕ) (result : LLMResult) (reason : List (String × Json))
    (d : ChatDb) : d.Scoped t (t.ended g result reason d) :=
  .trans (.extend (stepDelta_scoped ..)) (.pay fun e he => audits_auditOp _ _ e he)

theorem Bills.scoped {usage : Usage} (h : Bills t usage g d g' d') : d.Scoped t d' := by
  cases h with
  | charged => exact .pay fun e he => audits_chargeOps _ _ _ _ _ _ e he
  | replayed =>
    refine .pay fun e he => ?_
    unfold provision at he
    split at he <;> cases he
  | trial => exact { ChatDb.Scoped.refl t d with }
  | free => exact .refl t d

theorem Ends.scoped {acc : Acc} {answer : LLMAnswer} {pregen : Pregen} {out : ChatRunOut}
    (h : Ends cfg t acc g d answer pregen out g' d') : d.Scoped t d' := by
  cases h with
  | final h hb => exact (t.ended_scoped _ _ _ _).trans hb.scoped
  | unpaid | poor => exact .refl t d
  | maxTokens h => exact t.ended_scoped _ _ _ _
  | client hr hc =>
    rw [hr.eq]
    exact .extend hr.scoped
  | expired h =>
    split
    · have hmark : d.Scoped t (d.expireKey t.userId) := { ChatDb.Scoped.refl t d with }
      refine hmark.trans (.pay fun e he _ => ?_)
      obtain rfl : e = _ := by simpa [audits] using he
      rfl
    · exact .refl t d

end Scoped

/-! ## Every row has its session -/

/-- Session ids are unique, and a step, a call or an image that names a session names one that is
there; an image is of the user of its session, and has none exactly when it expires. -/
structure ChatDb.Owned (d : ChatDb) : Prop where
  sessionsSorted : d.sessions.Pairwise (·.id < ·.id)
  steps : ∀ st ∈ d.steps, ∃ s ∈ d.sessions, s.id = st.sessionId
  toolCalls : ∀ c ∈ d.toolCalls, ∃ s ∈ d.sessions, s.id = c.sessionId
  images : ∀ i ∈ d.images, ∀ sid, i.sessionId = some sid →
    ∃ s ∈ d.sessions, s.id = sid ∧ s.userId = i.userId
  expires : ∀ i ∈ d.images, i.expires = i.sessionId.isNone

section Owned

variable {u sid g : ℕ} {d d' : ChatDb} {t : Turn}

theorem ChatDb.Owned.eq_of_id (ho : d.Owned) {s s' : ChatSession} (hs : s ∈ d.sessions)
    (hs' : s' ∈ d.sessions) (h : s.id = s'.id) : s = s' := by
  have hnd : (d.sessions.map (·.id)).Nodup :=
    List.pairwise_map.2 (ho.sessionsSorted.imp fun h => Nat.ne_of_lt h)
  exact List.inj_on_of_nodup_map hnd hs hs' h

/-- A session of the user is of no one else. -/
theorem ChatDb.Owned.free (ho : d.Owned) {s : ChatSession} (hs : s ∈ d.sessions)
    (hu : s.userId = u) : d.Free u s.id := fun s' hs' hid => by
  rw [ho.eq_of_id hs' hs hid]
  exact hu

theorem ChatDb.Owned.truncate (ho : d.Owned) (sid anchor : ℕ) : (d.truncate sid anchor).Owned :=
  ⟨ho.sessionsSorted, fun st hst => ho.steps st (List.mem_of_mem_filter hst),
    fun c hc => ho.toolCalls c (List.mem_of_mem_filter hc), ho.images, ho.expires⟩

theorem ChatDb.Owned.addSession (ho : d.Owned) (hf : d.Fresh g) {s : ChatSession} (hs : g ≤ s.id) :
    ({ d with sessions := d.sessions ++ [s] } : ChatDb).Owned := by
  refine ⟨?_, fun st hst => ?_, fun c hc => ?_, fun i hi sid hsid => ?_, ho.expires⟩
  · refine List.pairwise_append.2 ⟨ho.sessionsSorted, List.pairwise_singleton _ _, ?_⟩
    intro a ha b hb
    rw [List.mem_singleton.1 hb]
    exact (hf.sessions a ha).trans_le hs
  · exact (ho.steps st hst).imp fun s' hs' => ⟨List.mem_append_left _ hs'.1, hs'.2⟩
  · exact (ho.toolCalls c hc).imp fun s' hs' => ⟨List.mem_append_left _ hs'.1, hs'.2⟩
  · exact (ho.images i hi sid hsid).imp fun s' hs' => ⟨List.mem_append_left _ hs'.1, hs'.2⟩

theorem ChatDb.Owned.addStep (ho : d.Owned) (hs : ∃ s ∈ d.sessions, s.id = sid)
    (m seq : ℕ) (payload : Payload) (usage : Option Usage) :
    (d.extend (stepDelta false sid m seq payload usage)).Owned := by
  refine ⟨ho.sessionsSorted, fun st hst => ?_, ?_, ?_, ?_⟩
  · rcases List.mem_append.1 hst with hst | hst
    · exact ho.steps st hst
    · rw [List.mem_singleton.1 hst]
      exact hs
  · simpa [ChatDb.extend, stepDelta] using ho.toolCalls
  · simpa [ChatDb.extend, stepDelta] using ho.images
  · simpa [ChatDb.extend, stepDelta] using ho.expires

theorem ChatDb.Owned.deliver (ho : d.Owned) {c : ToolCall} {o : ToolOutcome}
    (hc : ∃ s ∈ d.sessions, s.id = c.sessionId) : (d.deliver u g c o).Owned := by
  refine ⟨ho.sessionsSorted, fun st hst => ?_, fun c' hc' => ?_, ho.images, ho.expires⟩
  · rcases List.mem_append.1 hst with hst | hst
    · exact ho.steps st hst
    · rw [List.mem_singleton.1 hst]
      exact hc
  · obtain ⟨c₀, h₀, -, hsid, -⟩ := mem_deliver hc'
    rw [← hsid]
    exact ho.toolCalls c₀ h₀

theorem ChatDb.Owned.pay (ho : d.Owned) (ops : List WalletOp) : (d.pay ops).Owned :=
  ⟨ho.sessionsSorted, ho.steps, ho.toolCalls, ho.images, ho.expires⟩

theorem ChatDb.Owned.sweeps {out : ChatRunOut} (ho : d.Owned) (h : Sweeps out d d') : d'.Owned := by
  have hkept := h.kept
  have hmem : ∀ i ∈ d'.images, i ∈ d.images := fun i hi => h.sweptImages.sublist.subset hi
  refine ⟨by rw [hkept.sessions]; exact ho.sessionsSorted, ?_, ?_, fun i hi => ?_,
    fun i hi => ho.expires i (hmem i hi)⟩
  · rw [hkept.steps, hkept.sessions]
    exact ho.steps
  · rw [hkept.toolCalls, hkept.sessions]
    exact ho.toolCalls
  · rw [hkept.sessions]
    exact ho.images i (hmem i hi)

theorem ChatDb.Owned.scoped (ho : d.Owned) (h : d.Scoped t d') (hs : t.temporary = false →
    ∃ s ∈ d.sessions, s.id = t.sessionId ∧ s.userId = t.userId) : d'.Owned := by
  obtain ⟨steps, hsteps, hnewsteps⟩ := h.steps
  obtain ⟨calls, hcalls, hnewcalls⟩ := h.toolCalls
  obtain ⟨images, himages, hnewimages⟩ := h.images
  have hold : ∀ {P : ChatSession → Prop}, (∃ s ∈ d.sessions, P s) → ∃ s ∈ d'.sessions, P s := by
    rw [h.sessions]
    exact id
  refine ⟨h.sessions ▸ ho.sessionsSorted, fun st hst => hold ?_, fun c hc => hold ?_,
    fun i hi sid hsid => hold ?_, fun i hi => ?_⟩
  · rw [hsteps] at hst
    rcases List.mem_append.1 hst with hst | hst
    · exact ho.steps st hst
    · obtain ⟨ht, hid⟩ := hnewsteps st hst
      exact (hs ht).imp fun s h => ⟨h.1, h.2.1.trans hid.symm⟩
  · rw [hcalls] at hc
    rcases List.mem_append.1 hc with hc | hc
    · exact ho.toolCalls c hc
    · obtain ⟨ht, hid⟩ := hnewcalls c hc
      exact (hs ht).imp fun s h => ⟨h.1, h.2.1.trans hid.symm⟩
  · rw [himages] at hi
    rcases List.mem_append.1 hi with hi | hi
    · exact ho.images i hi sid hsid
    · obtain ⟨hu, -, hfk⟩ := hnewimages i hi
      rw [hsid] at hfk
      cases ht : t.temporary with
      | true => simp [fkSessionId, ht] at hfk
      | false =>
        obtain rfl : sid = t.sessionId := by simpa [fkSessionId, ht] using hfk
        exact (hs ht).imp fun s h => ⟨h.1, h.2.1, h.2.2.trans hu.symm⟩
  · rw [himages] at hi
    rcases List.mem_append.1 hi with hi | hi
    · exact ho.expires i hi
    · obtain ⟨-, hexp, hfk⟩ := hnewimages i hi
      rw [hexp, hfk]
      cases t.temporary <;> rfl

/-! A batch of results. -/

theorem Untouched.deliverAll {rs : List (ToolResultIn × ToolCall)} (hfree : d.Free u sid)
    (hr : ∀ p ∈ rs, p.2.sessionId = sid ∧ ∀ c ∈ d.toolCalls, c.id = p.2.id → c.sessionId = sid) :
    Untouched u d (deliverAll u rs g d).2 := by
  induction rs generalizing g d with
  | nil => exact .refl u d
  | cons p rs ih =>
    have htail := fun q hq => hr q (List.mem_cons_of_mem _ hq)
    obtain ⟨hsid, hcalls⟩ := hr p (List.mem_cons_self ..)
    unfold deliverAll
    split
    · refine (Untouched.deliver (o := p.1.outcome) (hsid ▸ hfree) (hsid ▸ hcalls)).trans
        (ih hfree fun q hq => ⟨(htail q hq).1, fun c hc hid => ?_⟩)
      obtain ⟨c₀, h₀, hid₀, hs₀, -⟩ := mem_deliver hc
      exact hs₀.symm.trans ((htail q hq).2 c₀ h₀ (hid₀.trans hid))
    · exact ih hfree htail

theorem ChatDb.Owned.deliverAll {rs : List (ToolResultIn × ToolCall)} (ho : d.Owned)
    (hs : ∃ s ∈ d.sessions, s.id = sid) (hr : ∀ p ∈ rs, p.2.sessionId = sid) :
    (deliverAll u rs g d).2.Owned := by
  induction rs generalizing g d with
  | nil => exact ho
  | cons p rs ih =>
    have htail := fun q hq => hr q (List.mem_cons_of_mem _ hq)
    unfold Chat.deliverAll
    split
    · exact ih (ho.deliver (by rw [hr p (List.mem_cons_self ..)]; exact hs)) hs htail
    · exact ih ho hs htail

end Owned

/-! ## Requests -/

/-- The user of a request. -/
def ChatRequest.userId : ChatRequest → ℕ
  | .run req => req.userId
  | .toolResult u _ _ => u

/-- The state `d'` and the turn of a request of the user `u` that began on `d`. -/
structure Begins (u : ℕ) (d d' : ChatDb) (t : Turn) : Prop where
  user : t.userId = u
  free : d'.Free u t.sessionId
  session : t.temporary = false → ∃ s ∈ d'.sessions, s.id = t.sessionId ∧ s.userId = t.userId
  untouched : Untouched u d d'
  owned : d'.Owned

section Requests

variable {llm : LLMAnswer → Prop} {cfg : Config} {t : Turn} {g g' : ℕ} {d d' d'' : ChatDb}
variable {u : ℕ} {request : ChatRequest} {att : Option PreparedAttachments} {mem : ChatMem}

/-- What a turn adds keeps what held when it began. -/
theorem Begins.later (h : Begins u d d' t) {m : ℕ} (hg : d'.Grows t.userId t.sessionId m d'')
    (hs : d'.Scoped t d'') : Begins u d d'' t := by
  obtain ⟨rfl, hfree, hsession, huntouched, howned⟩ := h
  refine ⟨rfl, ?_, ?_, huntouched.trans (.of_grows hg hfree), howned.scoped hs hsession⟩
  · rw [ChatDb.Free, hs.sessions]
    exact hfree
  · rw [hs.sessions]
    exact hsession

theorem Begins.pay (h : Begins u d d' t) {ops : List WalletOp} (hops : ∀ o ∈ ops, opUser o = u) :
    Begins u d (d'.pay ops) t :=
  ⟨h.user, h.free, h.session, h.untouched.trans (.of_grows (m := 0) (.pay hops) h.free),
    h.owned.pay ops⟩

theorem Opened.begins {req : RunRequest} {o : Opening} (h : Opened cfg req g d o g' d' mem)
    (hf : d.Fresh g) (ho : d.Owned) (ht : t.temporary = req.temporary) (hu : t.userId = req.userId)
    (hs : t.sessionId = o.session.id) : Begins req.userId d d' t := by
  have hown : ∀ s ∈ d.sessions, s.id ≠ g + 1 := fun s hs => by have := hf.sessions s hs; omega
  cases h with
  | temporary htemp _ hsid _ _ _ _ _ =>
    refine ⟨hu, fun s hmem hid => ?_, fun h => ?_, .refl _ _, ho⟩
    · have := hf.sessions s hmem
      omega
    · simp [ht, htemp] at h
  | created htemp _ hsid huser _ _ =>
    have howned := ho.addSession hf (s := o.session) (by omega)
    have hmem : o.session ∈ ({ d with sessions := d.sessions ++ [o.session] } : ChatDb).sessions := by
      simp
    have hfree := howned.free hmem huser.1
    refine ⟨hu, by rw [hs]; exact hfree, fun _ => ⟨_, hmem, hs.symm, by rw [hu, huser.1]⟩, ?_,
      howned.addStep ⟨_, hmem, rfl⟩ ..⟩
    exact (Untouched.addSession huser.1).trans (.of_grows (.extend (stepDelta_mine ..)) hfree)
  | resumed htemp _ hmem _ huser _ _ =>
    have hfree := ho.free hmem huser
    refine ⟨hu, by rw [hs]; exact hfree, fun _ => ⟨_, hmem, hs.symm, by rw [hu, huser]⟩, ?_,
      ho.addStep ⟨_, hmem, rfl⟩ ..⟩
    exact .of_grows (.extend (stepDelta_mine ..)) hfree
  | edited htemp _ hmem _ huser _ _ _ =>
    have hfree := ho.free hmem huser
    refine ⟨hu, by rw [hs]; exact hfree, fun _ => ⟨_, hmem, hs.symm, by rw [hu, huser]⟩, ?_,
      (ho.truncate _ _).addStep ⟨_, hmem, rfl⟩ ..⟩
    exact (Untouched.truncate hfree _).trans (.of_grows (.extend (stepDelta_mine ..)) hfree)

/-- The batch of a resolved request. -/
theorem Resolved.untouched {u sid m : ℕ} {results : List ToolResultIn} {session : ChatSession}
    {resolved : List (ToolResultIn × ToolCall)}
    (h : Resolved d u sid results session m resolved) (hf : d.Fresh g) (ho : d.Owned) :
    Untouched u d (deliverAll u resolved g d).2 ∧ (deliverAll u resolved g d).2.Owned := by
  have hfree : d.Free u sid := h.session_id ▸ ho.free h.session_mem h.user
  refine ⟨.deliverAll hfree fun p hp => ?_, ho.deliverAll ⟨_, h.session_mem, h.session_id⟩
    fun p hp => (h.calls p hp).2.2.1⟩
  obtain ⟨hmem, -, hsid, -⟩ := h.calls p hp
  refine ⟨hsid, fun c hc hid => ?_⟩
  rw [eq_of_callId hf hc hmem hid]
  exact hsid

theorem Ready.begins {m : ℕ} {session : ChatSession} {temporary : Bool}
    (h : Ready cfg g d request u session m temporary att g' d' mem) (hf : d.Fresh g) (ho : d.Owned)
    (ht : t.temporary = temporary) (hu : t.userId = u) (hs : t.sessionId = session.id) :
    u = request.userId ∧ Begins u d d' t := by
  cases h with
  | run h => exact ⟨rfl, h.begins hf ho ht hu hs⟩
  | @toolResult _ sid _ _ _ resolved first _ _ h hb hn hc =>
    obtain ⟨huntouched, howned⟩ := h.untouched hf ho
    have hmem : session ∈ (deliverAll u (first :: resolved) g d).2.sessions := by
      simpa using h.session_mem
    refine ⟨rfl, hu, ?_, fun _ => ⟨session, hmem, hs.symm, h.user.trans hu.symm⟩, huntouched, howned⟩
    rw [hs]
    exact howned.free hmem h.user

theorem Starts.begins (h : Starts cfg g d request t att g' d' mem) (hf : d.Fresh g)
    (ho : d.Owned) : Begins request.userId d d' t := by
  cases h with
  | intro h =>
    obtain ⟨rfl, hbegins⟩ := h.begins (t := turnOf ..) hf ho rfl rfl rfl
    exact hbegins.pay fun o hmem => by rw [List.mem_singleton.1 hmem]; rfl

theorem Passes.begins {provider : Provider} {rs : List Round}
    (h : Passes llm cfg g d request t provider att rs g' d' mem) (hf : d.Fresh g) (ho : d.Owned) :
    Begins request.userId d d' t := by
  cases h with
  | intro hs hp hg =>
    refine (hs.begins hf ho).later (m := t.messageStepId) ?_ ?_
    · rw [hg.eq]
      exact .extend (roundsDelta_mine hg)
    · rw [hg.eq]
      exact .extend (roundsDelta_scoped hg)

theorem Settles.untouched {out : ChatRunOut} (h : Settles cfg g d request out g' d')
    (hf : d.Fresh g) (ho : d.Owned) : Untouched request.userId d d' ∧ d'.Owned := by
  cases h with
  | @denied u m session temporary att g' d' mem reason h hp =>
    obtain ⟨rfl, hbegins⟩ := h.begins (t := turnOf u session m temporary (d'.policyState u) none none)
      hf ho rfl rfl rfl
    have hpaid := hbegins.pay (fun o hmem => by rw [List.mem_singleton.1 hmem]; rfl :
      ∀ o ∈ [policyAudit request.userId session temporary (d'.policyState request.userId)],
        opUser o = request.userId)
    exact ⟨hpaid.untouched, hpaid.owned⟩
  | noProvider h hm hp =>
    have hbegins := h.begins hf ho
    exact ⟨hbegins.untouched, hbegins.owned⟩
  | awaiting hr h hp hne =>
    subst hr
    exact h.untouched hf ho
  | replayed hr h hb hn hc =>
    subst hr
    exact h.untouched hf ho

theorem Visits.untouched (h : Visits llm cfg g d request g' d') (hf : d.Fresh g) (ho : d.Owned) :
    Untouched request.userId d d' ∧ d'.Owned := by
  cases h with
  | passed h =>
    have hbegins := h.begins hf ho
    exact ⟨hbegins.untouched, hbegins.owned⟩
  | exhausted h =>
    have hbegins := h.begins hf ho
    have hpaid : Begins request.userId d (Turn.exhausted cfg _ _) _ := hbegins.pay fun o hmem => by
      rw [List.mem_singleton.1 hmem]
      exact hbegins.user
    exact ⟨hpaid.untouched, hpaid.owned⟩
  | answered h =>
    cases h with
    | settled h => exact h.untouched hf ho
    | ended h hl he hs =>
      have hlater := (h.begins hf ho).later he.grows he.scoped
      exact ⟨hlater.untouched.sweeps hs, hlater.owned.sweeps hs⟩

end Requests

/-! ## Histories -/

/-- The rows of the user `v` are as they were; of the images, those with an expiry may be gone. -/
structure Kept (v : ℕ) (d d' : ChatDb) : Prop where
  sessions : d'.sessions.filter (·.userId = v) = d.sessions.filter (·.userId = v)
  steps : ∀ s ∈ d.sessions, s.userId = v →
    d'.steps.filter (·.sessionId = s.id) = d.steps.filter (·.sessionId = s.id)
  toolCalls : ∀ s ∈ d.sessions, s.userId = v →
    d'.toolCalls.filter (·.sessionId = s.id) = d.toolCalls.filter (·.sessionId = s.id)
  images : Swept (d.images.filter (·.userId = v)) (d'.images.filter (·.userId = v))
  wallet : d'.accounts.wallets v = d.accounts.wallets v
  ledger : d'.accounts.ledger.filter (·.userId = v) = d.accounts.ledger.filter (·.userId = v)
  audit : d'.accounts.audit.filter (·.userId = v) = d.accounts.audit.filter (·.userId = v)
  trialUsed : d'.trialUsed v = d.trialUsed v
  key : d'.keys v = d.keys v
  subscription : d'.subscriptions v = d.subscriptions v

/-- The state `g'`, `d'` is committed after requests of which none is of the user `v`; each runs to
its end or is stopped. -/
inductive OfOthers (llm : LLMAnswer → Prop) (cfg : Config) (v g : ℕ) (d : ChatDb) :
    ℕ → ChatDb → Prop
  | nil : OfOthers llm cfg v g d g d
  | serve {g₁ : ℕ} {d₁ : ChatDb} {request : ChatRequest} {o : Except AppError ChatRunOut}
      {w : ChatWorld} (h : OfOthers llm cfg v g d g₁ d₁) (hv : request.userId ≠ v)
      (hr : Runs (chatStore llm).step (request.prog cfg) (idle g₁ d₁) o w) :
      OfOthers llm cfg v g d w.gen w.db
  | stop {g₁ : ℕ} {d₁ : ChatDb} {request : ChatRequest} {e : TxAct ChatStmt}
      {w : ChatWorld} (h : OfOthers llm cfg v g d g₁ d₁) (hv : request.userId ≠ v)
      (hr : Reaches (chatStore llm).step (request.prog cfg) (idle g₁ d₁) e w) :
      OfOthers llm cfg v g d w.gen w.db

section Histories

variable {llm : LLMAnswer → Prop} {cfg : Config} {ok : ℕ → ChatDb → ChatRequest → Prop}
variable {g g' u v : ℕ} {d d' d'' : ChatDb} {request : ChatRequest}

/-- **Every row has its session**, in every state that is committed. -/
theorem chat_rows_owned (h : Reached llm cfg ok g d) : d.Owned :=
  h.induction (I := fun _ d => d.Owned) ⟨.nil, by simp [ChatDb.empty], by simp [ChatDb.empty],
    by simp [ChatDb.empty], by simp [ChatDb.empty]⟩ (fun _ ho => ho)
    (fun _ hf ho _ hv => (hv.untouched hf ho).2) fun ho _ =>
      ⟨ho.sessionsSorted, ho.steps, ho.toolCalls, ho.images, ho.expires⟩

theorem Kept.refl (v : ℕ) (d : ChatDb) : Kept v d d :=
  ⟨rfl, fun _ _ _ => rfl, fun _ _ _ => rfl, .refl _, rfl, rfl, rfl, rfl, rfl, rfl⟩

theorem Kept.mem_sessions (h : Kept v d d') {s : ChatSession} (hs : s ∈ d.sessions)
    (hv : s.userId = v) : s ∈ d'.sessions := by
  have hmem : s ∈ d'.sessions.filter (·.userId = v) := by
    rw [h.sessions]
    simpa using ⟨hs, hv⟩
  exact List.mem_of_mem_filter hmem

theorem Kept.trans (h : Kept v d d') (h' : Kept v d' d'') : Kept v d d'' :=
  ⟨h'.sessions.trans h.sessions,
    fun s hs hv => (h'.steps s (h.mem_sessions hs hv) hv).trans (h.steps s hs hv),
    fun s hs hv => (h'.toolCalls s (h.mem_sessions hs hv) hv).trans (h.toolCalls s hs hv),
    h.images.trans h'.images, h'.wallet.trans h.wallet, h'.ledger.trans h.ledger,
    h'.audit.trans h.audit, h'.trialUsed.trans h.trialUsed, h'.key.trans h.key,
    h'.subscription.trans h.subscription⟩

/-- The rows of one user are among those of all users but another. -/
theorem filter_filter_ne {α : Type} {f : α → ℕ} (huv : v ≠ u) (l : List α) :
    (l.filter (f · ≠ u)).filter (f · = v) = l.filter (f · = v) := by
  rw [List.filter_filter]
  refine List.filter_congr fun x _ => ?_
  by_cases hx : f x = v <;> simp [hx, huv]

theorem filter_eq_of_filter_ne {α : Type} {f : α → ℕ} {l l' : List α} (huv : v ≠ u)
    (h : l'.filter (f · ≠ u) = l.filter (f · ≠ u)) : l'.filter (f · = v) = l.filter (f · = v) := by
  rw [← filter_filter_ne huv l, ← filter_filter_ne huv l', h]

theorem Untouched.kept (h : Untouched u d d') (huv : v ≠ u) : Kept v d d' :=
  ⟨filter_eq_of_filter_ne huv h.sessions, fun s hs hv => h.steps s hs (hv.trans_ne huv),
    fun s hs hv => h.toolCalls s hs (hv.trans_ne huv), by
      simpa only [filter_filter_ne huv] using h.images.filter (·.userId = v),
    h.accounts.wallets v huv, filter_eq_of_filter_ne huv h.accounts.ledger,
    filter_eq_of_filter_ne huv h.accounts.audit, h.trialUsed v huv,
    h.keys v huv, congrFun h.subscriptions v⟩

/-- What a request of another user leaves. -/
theorem Leaves.kept (h : Leaves llm cfg g d request g' d') (hf : d.Fresh g) (ho : d.Owned)
    (hv : request.userId ≠ v) : Kept v d d' ∧ d'.Owned := by
  obtain ⟨-, rfl | ⟨g₁, -, hvisit⟩⟩ := h
  · exact ⟨.refl _ _, ho⟩
  · obtain ⟨huntouched, howned⟩ := hvisit.untouched hf ho
    exact ⟨huntouched.kept hv.symm, howned⟩

theorem OfOthers.kept (h : OfOthers llm cfg v g d g' d') (hf : d.Fresh g) (ho : d.Owned) :
    d'.Fresh g' ∧ d'.Owned ∧ Kept v d d' := by
  have hnext : ∀ {g₁ g₂ d₁ d₂ request}, d₁.Fresh g₁ ∧ d₁.Owned ∧ Kept v d d₁ →
      request.userId ≠ v → Leaves llm cfg g₁ d₁ request g₂ d₂ →
      d₂.Fresh g₂ ∧ d₂.Owned ∧ Kept v d d₂ := by
    intro g₁ g₂ d₁ d₂ request h₁ hv hl
    obtain ⟨hkept, howned⟩ := hl.kept h₁.1 h₁.2.1 hv
    exact ⟨hl.fresh h₁.1, howned, h₁.2.2.trans hkept⟩
  induction h with
  | nil => exact ⟨hf, ho, .refl _ _⟩
  | serve h hv hr ih => exact hnext ih hv (leaves_of_runs ih.1 hr)
  | stop h hv hr ih => exact hnext ih hv (leaves_of_reaches ih.1 hr)

/-- **Tenants are apart.** However many requests of other users are served or stopped, and whatever
sessions, messages and calls they name, the rows of a user are as they were, but for images with an
expiry that a sweep has deleted. -/
theorem tenants_apart (h : Reached llm cfg ok g d) (hs : OfOthers llm cfg v g d g' d') :
    Kept v d d' :=
  (hs.kept h.fresh (chat_rows_owned h)).2.2

end Histories

/-- Another user sends a message and tries to edit one of the first. -/
def intrusion : List (ChatRequest × Script) :=
  [(.run { byokMessage "smart" with userId := 2 }, oneMessage),
    (.run { inSession (some 0) with userId := 2 }, oneMessage)]

theorem tenants_apart_intrusion : ∃ g d g' d',
    Reached anyProvider openaiInstance (fun _ _ _ => True) g d ∧
    OfOthers anyProvider openaiInstance 1 g d g' d' ∧ 0 < d.steps.length ∧
    d.steps.length < d'.steps.length ∧ Kept 1 d d' := by
  have hothers : OfOthers anyProvider openaiInstance 1 messageSent.1 messageSent.2
      (serveList openaiInstance intrusion messageSent.1 messageSent.2).1
      (serveList openaiInstance intrusion messageSent.1 messageSent.2).2 :=
    .serve (.serve .nil (by decide) (serveOne_runs ..)) (by decide) (serveOne_runs ..)
  have hsteps : 0 < messageSent.2.steps.length ∧ messageSent.2.steps.length <
      (serveList openaiInstance intrusion messageSent.1 messageSent.2).2.steps.length := by
    decide +kernel
  exact ⟨_, _, _, _, messageSent_reached, hothers, hsteps.1, hsteps.2,
    tenants_apart messageSent_reached hothers⟩

/-- After a message for which an image was drawn. -/
theorem chat_rows_owned_message : ∃ g d, Reached anyProvider openaiInstance (fun _ _ _ => True) g d ∧
    (d.steps ≠ [] ∧ d.toolCalls ≠ [] ∧ d.images ≠ []) ∧ d.Owned := by
  let drawn := serveList openaiInstance [(.run (byokMessage "smart"), drawingThen (.result answered))]
    0 funded
  have hreached : Reached anyProvider openaiInstance (fun _ _ _ => True) drawn.1 drawn.2 :=
    serveList_reached _ (funded_reached openaiInstance)
  have hrows : 0 < drawn.2.steps.length ∧ 0 < drawn.2.toolCalls.length ∧ 0 < drawn.2.images.length := by
    decide +kernel
  exact ⟨_, _, hreached, ⟨List.ne_nil_of_length_pos hrows.1, List.ne_nil_of_length_pos hrows.2.1,
    List.ne_nil_of_length_pos hrows.2.2⟩, chat_rows_owned hreached⟩

/-! ## Temporary chats -/

/-- The chat tables have no row of the chat, but for images without a session that expire and that are
left by a sweep, and no audit names its session. -/
structure Traceless (u : ℕ) (d d' : ChatDb) : Prop where
  sessions : d'.sessions = d.sessions
  steps : d'.steps = d.steps
  toolCalls : d'.toolCalls = d.toolCalls
  images : ∃ new, Swept (d.images ++ new) d'.images ∧
    ∀ i ∈ new, i.userId = u ∧ i.expires = true ∧ i.sessionId = none
  audit : ∃ new, d'.accounts.audit = d.accounts.audit ++ new ∧ ∀ e ∈ new, e.sessionId = none

section Temporary

variable {llm : LLMAnswer → Prop} {cfg : Config} {ok : ℕ → ChatDb → ChatRequest → Prop}
variable {g g' : ℕ} {d d' : ChatDb} {t : Turn} {req : RunRequest} {att : Option PreparedAttachments}
variable {mem : ChatMem}

theorem ChatDb.Scoped.traceless (h : d.Scoped t d') (ht : t.temporary = true) :
    Traceless t.userId d d' := by
  have hnone : ∀ {α : Type} {P : α → Prop} {l l' : List α},
      (∃ new, l' = l ++ new ∧ ∀ x ∈ new, t.temporary = false ∧ P x) → l' = l := by
    rintro α P l l' ⟨new, rfl, hnew⟩
    cases new with
    | nil => simp
    | cons x new => simpa [ht] using (hnew x (List.mem_cons_self ..)).1
  obtain ⟨images, himages, hnewimages⟩ := h.images
  obtain ⟨audit, haudit, hnewaudit⟩ := h.audit
  refine ⟨h.sessions, hnone h.steps, hnone h.toolCalls, ⟨images, himages ▸ .refl _, fun i hi => ?_⟩,
    ⟨audit, haudit, fun e he => hnewaudit e he ht⟩⟩
  obtain ⟨hu, hexpires, hsid⟩ := hnewimages i hi
  exact ⟨hu, hexpires.trans ht, hsid.trans (fkSessionId_temporary ht)⟩

theorem Traceless.sweeps {u : ℕ} {d'' : ChatDb} {out : ChatRunOut} (h : Traceless u d d')
    (hs : Sweeps out d' d'') : Traceless u d d'' := by
  obtain ⟨new, hswept, hnew⟩ := h.images
  have hkept := hs.kept
  exact ⟨hkept.sessions.trans h.sessions, hkept.steps.trans h.steps, hkept.toolCalls.trans h.toolCalls,
    ⟨new, hswept.trans hs.sweptImages, hnew⟩, hkept.accounts ▸ h.audit⟩

theorem policyAudit_scoped (u : ℕ) (session : ChatSession) (m : ℕ) (temporary : Bool)
    (state : PolicyState) (apiKey : Option String) (byokProvider : Option Provider) (d : ChatDb) :
    d.Scoped (turnOf u session m temporary state apiKey byokProvider)
      (d.pay [policyAudit u session temporary state]) := by
  refine .pay fun e he ht => ?_
  obtain rfl : e = _ := by simpa [policyAudit, audits] using he
  exact fkSessionId_temporary ht

/-- A temporary run reads, and stores nothing before its policy check. -/
theorem Ready.temporary {u m : ℕ} {session : ChatSession} {temporary : Bool}
    (h : Ready cfg g d (.run req) u session m temporary att g' d' mem)
    (ht : req.temporary = true) : u = req.userId ∧ temporary = true ∧ d' = d := by
  cases h with
  | run h =>
    refine ⟨rfl, ht, ?_⟩
    cases h with
    | temporary => rfl
    | created hno | resumed hno | edited hno => simp [ht] at hno

theorem Starts.temporary (h : Starts cfg g d (.run req) t att g' d' mem)
    (ht : req.temporary = true) :
    t.userId = req.userId ∧ t.temporary = true ∧ d.Scoped t d' := by
  cases h with
  | intro h =>
    obtain ⟨rfl, rfl, rfl⟩ := h.temporary ht
    exact ⟨rfl, rfl, policyAudit_scoped ..⟩

theorem Passes.temporary {provider : Provider} {rs : List Round}
    (h : Passes llm cfg g d (.run req) t provider att rs g' d' mem) (ht : req.temporary = true) :
    t.userId = req.userId ∧ t.temporary = true ∧ d.Scoped t d' := by
  cases h with
  | intro hs hp hg =>
    obtain ⟨hu, htemp, hscoped⟩ := hs.temporary ht
    refine ⟨hu, htemp, hscoped.trans ?_⟩
    rw [hg.eq]
    exact .extend (roundsDelta_scoped hg)

theorem Settles.traceless {out : ChatRunOut} (h : Settles cfg g d (.run req) out g' d')
    (ht : req.temporary = true) : Traceless req.userId d d' := by
  cases h with
  | @denied u m session temporary att g' d' mem reason h hp =>
    obtain ⟨rfl, rfl, rfl⟩ := h.temporary ht
    exact (policyAudit_scoped _ session m true _ none none d').traceless rfl
  | noProvider h hm hp =>
    obtain ⟨hu, htemp, hscoped⟩ := h.temporary ht
    exact hu ▸ hscoped.traceless htemp
  | awaiting hr | replayed hr => cases hr

theorem Visits.traceless (h : Visits llm cfg g d (.run req) g' d') (ht : req.temporary = true) :
    Traceless req.userId d d' := by
  cases h with
  | passed h =>
    obtain ⟨hu, htemp, hscoped⟩ := h.temporary ht
    exact hu ▸ hscoped.traceless htemp
  | exhausted h =>
    obtain ⟨hu, htemp, hscoped⟩ := h.temporary ht
    exact hu ▸ (hscoped.trans (.pay fun e he => audits_auditOp _ _ e he)).traceless htemp
  | answered h =>
    cases h with
    | settled h => exact h.traceless ht
    | ended h hl he hs =>
      obtain ⟨hu, htemp, hscoped⟩ := h.temporary ht
      exact hu ▸ ((hscoped.trans he.scoped).traceless htemp).sweeps hs

theorem Leaves.traceless (h : Leaves llm cfg g d (.run req) g' d') (ht : req.temporary = true) :
    Traceless req.userId d d' := by
  obtain ⟨-, rfl | ⟨g₁, -, hv⟩⟩ := h
  · exact ⟨rfl, rfl, rfl, ⟨[], by rw [List.append_nil]; exact .refl _, nofun⟩, exists_append_self _⟩
  · exact hv.traceless ht

/-- **A temporary chat leaves no trace**, whether it answers, fails or is stopped. -/
theorem temporary_leaves_no_trace (h : Reached llm cfg ok g d) (ht : req.temporary = true) :
    (∀ o w, Runs (chatStore llm).step ((ChatRequest.run req).prog cfg) (idle g d) o w →
      Traceless req.userId d w.db) ∧
    ∀ e w, Reaches (chatStore llm).step ((ChatRequest.run req).prog cfg) (idle g d) e w →
      Traceless req.userId d w.db :=
  ⟨fun _ _ hr => (leaves_of_runs h.fresh hr).traceless ht,
    fun _ _ hr => (leaves_of_reaches h.fresh hr).traceless ht⟩

end Temporary

theorem temporary_leaves_no_trace_drawing : ∃ g d o w,
    Runs (chatStore anyProvider).step ((ChatRequest.run temporaryDrawing).prog openaiInstance)
      (idle g d) o w ∧ d.images.length < w.db.images.length ∧ Traceless 1 d w.db := by
  have hr := serveOne_runs openaiInstance (drawingThen (.result answered)) (.run temporaryDrawing)
    0 funded
  have hlt : funded.images.length < (serveOne openaiInstance (drawingThen (.result answered))
      (.run temporaryDrawing) 0 funded).2.1.db.images.length := by
    decide +kernel
  exact ⟨_, _, _, _, hr, hlt,
    (temporary_leaves_no_trace (funded_reached openaiInstance) rfl).1 _ _ hr⟩

end ChatBackend.Chat
