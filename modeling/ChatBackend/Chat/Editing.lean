import ChatBackend.Chat.Replay

/-!
# Editing a message

A run that edits a message deletes the steps of its session from that message on, and the calls of
every turn with such a step, in the transaction that stores the new user step. `edit_truncates` says
what is left in every state that is committed; a call that was issued before the message is lost with
a turn that goes on after it.
-/

namespace ChatBackend.Chat

open Prog Wallet Policy

/-! ## Rows of one turn -/

/-- The user whose rows a write touches. -/
def opUser : WalletOp → ℕ
  | .insertWallet u => u
  | .addBalance u _ => u
  | .insertLedger r => r.userId
  | .insertAudit e => e.userId

/-- The accounts of the other users are as they were. -/
structure OthersKept (u : ℕ) (a a' : Accounts) : Prop where
  wallets : ∀ v, v ≠ u → a'.wallets v = a.wallets v
  ledger : a'.ledger.filter (·.userId ≠ u) = a.ledger.filter (·.userId ≠ u)
  audit : a'.audit.filter (·.userId ≠ u) = a.audit.filter (·.userId ≠ u)

/-- `d'` has, in addition to `d`, rows of one turn of a user. -/
structure ChatDb.Grows (u sessionId messageStepId : ℕ) (d d' : ChatDb) : Prop where
  sessions : d'.sessions = d.sessions
  steps : ∃ new, d'.steps = d.steps ++ new ∧
    ∀ st ∈ new, st.sessionId = sessionId ∧ st.messageStepId = messageStepId
  toolCalls : ∃ new, d'.toolCalls = d.toolCalls ++ new ∧
    ∀ c ∈ new, c.sessionId = sessionId ∧ c.messageStepId = messageStepId
  images : ∃ new, d'.images = d.images ++ new ∧ ∀ i ∈ new, i.userId = u
  accounts : OthersKept u d.accounts d'.accounts
  trialUsed : ∀ v, v ≠ u → d'.trialUsed v = d.trialUsed v
  keys : ∀ v, v ≠ u → d'.keys v = d.keys v
  subscriptions : d'.subscriptions = d.subscriptions
  expired : d'.expired = d.expired

section Grows

variable {u sid m : ℕ} {a a' a'' : Accounts} {d d' d'' : ChatDb}

theorem OthersKept.refl (u : ℕ) (a : Accounts) : OthersKept u a a := ⟨fun _ _ => rfl, rfl, rfl⟩

theorem OthersKept.trans (h : OthersKept u a a') (h' : OthersKept u a' a'') : OthersKept u a a'' :=
  ⟨fun v hv => (h'.wallets v hv).trans (h.wallets v hv), h'.ledger.trans h.ledger,
    h'.audit.trans h.audit⟩

theorem OthersKept.apply {o : WalletOp} (h : opUser o = u) : OthersKept u a (o.apply a) := by
  subst h
  cases o with
  | insertWallet u | addBalance u => exact ⟨fun v hv => Function.update_of_ne hv _ _, rfl, rfl⟩
  | insertLedger r => exact ⟨fun _ _ => rfl, by simp [WalletOp.apply, opUser], rfl⟩
  | insertAudit e => exact ⟨fun _ _ => rfl, rfl, by simp [WalletOp.apply, opUser]⟩

theorem OthersKept.applyAll {ops : List WalletOp} (h : ∀ o ∈ ops, opUser o = u) :
    OthersKept u a (applyAll ops a) := by
  induction ops generalizing a with
  | nil => exact .refl u a
  | cons o ops ih =>
    exact (OthersKept.apply (h o (List.mem_cons_self ..))).trans
      (ih fun o' ho' => h o' (List.mem_cons_of_mem _ ho'))

theorem opUser_chargeOps (a : Accounts) (ledgerId u : ℕ) (amount : Int) (key : IdemKey)
    (metaData : Json) (sessionId : Option ℕ) :
    ∀ o ∈ chargeOps a ledgerId u amount key metaData sessionId, opUser o = u := by
  intro o ho
  unfold chargeOps provision at ho
  rcases List.mem_append.1 ho with ho | ho
  · split at ho
    · cases ho
    · rw [List.mem_singleton.1 ho]
      rfl
  · simp only [List.mem_cons, List.not_mem_nil, or_false] at ho
    rcases ho with rfl | rfl | rfl <;> rfl

theorem exists_append {α : Type} {P : α → Prop} {l l' l'' : List α}
    (h : ∃ new, l' = l ++ new ∧ ∀ x ∈ new, P x) (h' : ∃ new, l'' = l' ++ new ∧ ∀ x ∈ new, P x) :
    ∃ new, l'' = l ++ new ∧ ∀ x ∈ new, P x := by
  obtain ⟨new, rfl, hnew⟩ := h
  obtain ⟨new', rfl, hnew'⟩ := h'
  exact ⟨new ++ new', List.append_assoc .., fun x hx => (List.mem_append.1 hx).elim (hnew x) (hnew' x)⟩

theorem exists_append_self {α : Type} {P : α → Prop} (l : List α) :
    ∃ new, l = l ++ new ∧ ∀ x ∈ new, P x := ⟨[], (List.append_nil l).symm, nofun⟩

namespace ChatDb.Grows

theorem refl (u sid m : ℕ) (d : ChatDb) : d.Grows u sid m d :=
  ⟨rfl, exists_append_self _, exists_append_self _, exists_append_self _, .refl _ _, fun _ _ => rfl,
    fun _ _ => rfl, rfl, rfl⟩

theorem trans (h : d.Grows u sid m d') (h' : d'.Grows u sid m d'') : d.Grows u sid m d'' :=
  ⟨h'.sessions.trans h.sessions, exists_append h.steps h'.steps,
    exists_append h.toolCalls h'.toolCalls, exists_append h.images h'.images,
    h.accounts.trans h'.accounts, fun v hv => (h'.trialUsed v hv).trans (h.trialUsed v hv),
    fun v hv => (h'.keys v hv).trans (h.keys v hv), h'.subscriptions.trans h.subscriptions,
    h'.expired.trans h.expired⟩

theorem pay {ops : List WalletOp} (h : ∀ o ∈ ops, opUser o = u) : d.Grows u sid m (d.pay ops) :=
  { refl u sid m d with accounts := .applyAll h }

theorem audit (e : AuditEvent) (h : e.userId = u) : d.Grows u sid m (d.pay [.insertAudit e]) :=
  pay fun o ho => by rw [List.mem_singleton.1 ho]; exact h

end ChatDb.Grows

/-- Rows of a turn. -/
structure Delta.Mine (u sessionId messageStepId : ℕ) (Δ : Delta) : Prop where
  steps : ∀ st ∈ Δ.steps, st.sessionId = sessionId ∧ st.messageStepId = messageStepId
  toolCalls : ∀ c ∈ Δ.toolCalls, c.sessionId = sessionId ∧ c.messageStepId = messageStepId
  images : ∀ i ∈ Δ.images, i.userId = u
  wallet : ∀ o ∈ Δ.wallet, opUser o = u

theorem Delta.Mine.empty : (∅ : Delta).Mine u sid m := ⟨nofun, nofun, nofun, nofun⟩

theorem Delta.Mine.append {Δ Δ' : Delta} (h : Δ.Mine u sid m) (h' : Δ'.Mine u sid m) :
    (Δ ++ Δ').Mine u sid m :=
  ⟨fun st hst => (List.mem_append.1 hst).elim (h.steps st) (h'.steps st),
    fun c hc => (List.mem_append.1 hc).elim (h.toolCalls c) (h'.toolCalls c),
    fun i hi => (List.mem_append.1 hi).elim (h.images i) (h'.images i),
    fun o ho => (List.mem_append.1 ho).elim (h.wallet o) (h'.wallet o)⟩

theorem ChatDb.Grows.extend {Δ : Delta} (h : Δ.Mine u sid m) : d.Grows u sid m (d.extend Δ) :=
  ⟨rfl, ⟨Δ.steps, rfl, h.steps⟩, ⟨Δ.toolCalls, rfl, h.toolCalls⟩, ⟨Δ.images, rfl, h.images⟩,
    .applyAll h.wallet, fun _ _ => rfl, fun _ _ => rfl, rfl, rfl⟩

theorem stepDelta_mine (temporary : Bool) (seq : ℕ) (payload : Payload) (usage : Option Usage) :
    (stepDelta temporary sid m seq payload usage).Mine u sid m := by
  refine ⟨fun st hst => ?_, nofun, nofun, nofun⟩
  unfold stepDelta at hst
  split at hst
  · cases hst
  · rw [List.mem_singleton.1 hst]
    exact ⟨rfl, rfl⟩

end Grows

/-! ## Rows of a generation -/

section Generation

variable {llm : LLMAnswer → Prop} {cfg : Config} {t : Turn} {g g' : ℕ} {d d' : ChatDb}
variable {request : ChatRequest} {b : BlockRun} {rs : List Round}

theorem BlockRun.Done.mine (h : b.Done cfg t g) :
    (b.delta t).Mine t.userId t.sessionId t.messageStepId := by
  obtain ⟨pregen, g₁, d₁, u, g', hg, huse, hid, hargs, hproj, he⟩ := h
  have haudit : ∀ event payload, opUser (t.auditOp event payload) = t.userId := fun _ _ => rfl
  refine ⟨fun st hst => ?_, fun c hc => ?_, fun i hi => ?_, fun o ho => ?_⟩
  · have hst : t.temporary = false ∧ st ∈ b.steps t := by simpa [BlockRun.delta] using hst
    have hst := hst.2
    unfold BlockRun.steps at hst
    split at hst
    · rw [List.mem_singleton.1 hst]
      exact ⟨rfl, rfl⟩
    · rw [List.mem_singleton.1 hst]
      exact ⟨rfl, rfl⟩
    · cases hst
  · have hc : t.temporary = false ∧ c = b.row t := by simpa [BlockRun.delta] using hc
    rw [hc.2]
    exact ⟨rfl, rfl⟩
  · have hi : i ∈ b.image t := hi
    unfold BlockRun.image at hi
    split at hi
    · rw [List.mem_singleton.1 hi]
    · cases hi
  · rcases List.mem_append.1 ho with ho | ho
    · rcases List.mem_append.1 ho with ho | ho
      · rw [List.mem_singleton.1 ho]
        exact haudit _ _
      · unfold BlockRun.charge at ho
        split at he <;> rename_i hexec <;> rw [hexec] at ho
        · cases ho
        · obtain ⟨-, -, -, -, -, -, -, rfl⟩ := he
          exact opUser_chargeOps _ _ _ _ _ _ _ o ho
        · cases ho
    · unfold BlockRun.completedAudit at ho
      split at ho
      · rw [List.mem_singleton.1 ho]
        exact haudit _ _
      · rw [List.mem_singleton.1 ho]
        exact haudit _ _
      · cases ho

theorem deltas_mine {bs : List BlockRun} (h : ∀ b ∈ bs, b.Done cfg t g) :
    (deltas t bs).Mine t.userId t.sessionId t.messageStepId := by
  induction bs with
  | nil => exact .empty
  | cons b bs ih =>
    rw [deltas_cons]
    exact (h b (List.mem_cons_self ..)).mine.append (ih fun b' hb' => h b' (List.mem_cons_of_mem _ hb'))

theorem Round.Ok.mine {r : Round} (h : r.Ok cfg t g d g' d') :
    (r.delta t).Mine t.userId t.sessionId t.messageStepId :=
  (stepDelta_mine ..).append (deltas_mine h.done)

theorem roundsDelta_mine {provider : Provider} {att : Option PreparedAttachments} {mem mem' : ChatMem}
    (h : Generated llm cfg t provider att g d mem rs g' d' mem') :
    (roundsDelta t rs).Mine t.userId t.sessionId t.messageStepId := by
  induction h with
  | start => exact .empty
  | round h hr _ _ _ ih =>
    rw [roundsDelta_append]
    exact ih.append hr.mine

theorem Turn.ended_grows (t : Turn) (g : ℕ) (result : LLMResult) (reason : List (String × Json))
    (d : ChatDb) : d.Grows t.userId t.sessionId t.messageStepId (t.ended g result reason d) :=
  .trans (.extend (stepDelta_mine ..)) (.audit _ rfl)

theorem Bills.grows {usage : Usage} (h : Bills t usage g d g' d') (sid m : ℕ) :
    d.Grows t.userId sid m d' := by
  cases h with
  | charged => exact .pay (opUser_chargeOps _ _ _ _ _ _ _)
  | replayed =>
    refine .pay fun o ho => ?_
    unfold provision at ho
    split at ho
    · cases ho
    · rw [List.mem_singleton.1 ho]
      rfl
  | trial => exact { ChatDb.Grows.refl _ sid m d with
      trialUsed := fun v hv => Function.update_of_ne hv _ _ }
  | free => exact .refl _ _ _ _

theorem Ends.grows {acc : Acc} {answer : LLMAnswer} {pregen : Pregen} {out : ChatRunOut}
    (h : Ends cfg t acc g d answer pregen out g' d') :
    d.Grows t.userId t.sessionId t.messageStepId d' := by
  cases h with
  | final h hb => exact (t.ended_grows _ _ _ _).trans (hb.grows _ _)
  | unpaid | poor => exact .refl _ _ _ _
  | maxTokens h => exact t.ended_grows _ _ _ _
  | client hr hc =>
    rw [hr.eq]
    exact .extend hr.mine
  | expired h =>
    split
    · have hmark : d.Grows t.userId t.sessionId t.messageStepId (d.expireKey t.userId) :=
        { ChatDb.Grows.refl _ _ _ d with keys := fun v hv => Function.update_of_ne hv _ _ }
      exact hmark.trans (.audit _ rfl)
    · exact .refl _ _ _ _

/-- The message that ends a turn, if it is stored. -/
inductive Turn.Closing (t : Turn) : List ChatStep → Prop
  | none : t.Closing []
  | message {result : LLMResult} (seq : ℕ) (h : result.Final ∨ result.stopReason = .maxTokens) :
      t.Closing [⟨seq, t.sessionId, t.messageStepId, .assistant result.contentBlocks, some result.usage⟩]

/-- `d'` has, in addition to `d`, the steps and the calls of whole rounds of a turn that is stored, and
at most the message that ends it. -/
structure Turn.Writes (cfg : Config) (t : Turn) (rs : List Round) (last : List ChatStep)
    (d d' : ChatDb) : Prop where
  whole : ∀ r ∈ rs, ∃ g₀ d₀ g₁ d₁, r.Ok cfg t g₀ d₀ g₁ d₁
  closing : t.Closing last
  steps : d'.steps = d.steps ++ (roundsDelta t rs).steps ++ last
  toolCalls : d'.toolCalls = d.toolCalls ++ (roundsDelta t rs).toolCalls

theorem Turn.Writes.refl (cfg : Config) (t : Turn) (d : ChatDb) : t.Writes cfg [] [] d d :=
  ⟨nofun, .none, by simp [roundsDelta], by simp [roundsDelta]⟩

/-- The tables `d''` have the rows of `d'`. -/
theorem Turn.Writes.of_eq {last : List ChatStep} {d'' : ChatDb} (h : t.Writes cfg rs last d d')
    (hs : d''.steps = d'.steps) (hc : d''.toolCalls = d'.toolCalls) : t.Writes cfg rs last d d'' :=
  ⟨h.whole, h.closing, hs.trans h.steps, hc.trans h.toolCalls⟩

theorem Generated.whole {provider : Provider} {att : Option PreparedAttachments} {mem mem' : ChatMem}
    (h : Generated llm cfg t provider att g d mem rs g' d' mem') :
    ∀ r ∈ rs, ∃ g₀ d₀ g₁ d₁, r.Ok cfg t g₀ d₀ g₁ d₁ := by
  induction h with
  | start => exact nofun
  | round h hr _ _ _ ih =>
    intro r hmem
    rcases List.mem_append.1 hmem with hmem | hmem
    · exact ih r hmem
    · rw [List.mem_singleton.1 hmem]
      exact ⟨_, _, _, _, hr⟩

theorem Generated.writes {provider : Provider} {att : Option PreparedAttachments} {mem mem' : ChatMem}
    (h : Generated llm cfg t provider att g d mem rs g' d' mem') : t.Writes cfg rs [] d d' := by
  refine ⟨h.whole, .none, ?_, ?_⟩
  · rw [h.eq, List.append_nil]
    rfl
  · rw [h.eq]
    rfl

theorem Turn.Writes.ended {result : LLMResult} (h : t.Writes cfg rs [] d d')
    (ht : t.temporary = false) (hr : result.Final ∨ result.stopReason = .maxTokens) (n : ℕ)
    (reason : List (String × Json)) : ∃ last, t.Writes cfg rs last d (t.ended n result reason d') := by
  refine ⟨_, h.whole, .message n hr, ?_, ?_⟩
  · simp [Turn.ended, ChatDb.pay, ChatDb.extend, Turn.stepDelta, Chat.stepDelta, ht, h.steps]
  · simp [Turn.ended, ChatDb.pay, ChatDb.extend, Turn.stepDelta, Chat.stepDelta, h.toolCalls]

/-- The end of a generation adds a message or one more round. -/
theorem Ends.writes {acc : Acc} {answer : LLMAnswer} {pregen : Pregen} {out : ChatRunOut} {g₁ : ℕ}
    {d₁ : ChatDb} (h : Ends cfg t acc g₁ d₁ answer pregen out g' d') (ht : t.temporary = false)
    (hw : t.Writes cfg rs [] d d₁) : ∃ rs last, t.Writes cfg rs last d d' := by
  cases h with
  | final h hb =>
    obtain ⟨last, hlast⟩ := hw.ended ht (.inl h) g₁ []
    exact ⟨rs, last, hlast.of_eq hb.rows.2 hb.rows.1⟩
  | unpaid | poor => exact ⟨rs, [], hw⟩
  | maxTokens h => exact ⟨rs, hw.ended ht (.inr h) g₁ _⟩
  | @client r _ _ hr hc =>
    refine ⟨rs ++ [r], [], fun r' hmem => ?_, .none, ?_, ?_⟩
    · rcases List.mem_append.1 hmem with hmem | hmem
      · exact hw.whole r' hmem
      · rw [List.mem_singleton.1 hmem]
        exact ⟨_, _, _, _, hr⟩
    · rw [roundsDelta_append, hr.eq]
      simp [ChatDb.extend, hw.steps]
    · rw [roundsDelta_append, hr.eq]
      simp [ChatDb.extend, hw.toolCalls]
  | expired h =>
    refine ⟨rs, [], ?_⟩
    split
    · exact hw.of_eq rfl rfl
    · exact hw

end Generation

/-! ## The edit -/

/-- The ids of the tool blocks of a step. -/
def ChatStep.issued (st : ChatStep) : List String :=
  match st.payload with
  | .assistant content => toolUseIds content
  | _ => []

/-- The step holds the tool block of the call. -/
abbrev ChatStep.Issues (st : ChatStep) (c : ToolCall) : Prop :=
  st.sessionId = c.sessionId ∧ st.messageStepId = c.messageStepId ∧ c.providerToolUseId ∈ st.issued

/-- Of the rows of `d` that are left in `d'`, the tool blocks have the calls that they had, and the
calls have the steps that have issued them. -/
structure KeepsCalls (d d' : ChatDb) : Prop where
  calls : ∀ st ∈ d.steps, st ∈ d'.steps → ∀ c ∈ d.toolCalls, st.Issues c → c ∈ d'.toolCalls
  blocks : ∀ c ∈ d.toolCalls, c ∈ d'.toolCalls → ∀ st ∈ d.steps, st.Issues c → st ∈ d'.steps

/-- A turn that has issued a call before `anchor` does not go on after it. -/
abbrev ChatDb.Separate (d : ChatDb) (sessionId anchor : ℕ) : Prop :=
  ∀ c ∈ d.toolCalls, c.sessionId = sessionId → ∀ st ∈ d.steps, st.Issues c → st.seq < anchor →
    ∀ st' ∈ d.steps, st'.sessionId = sessionId → st'.messageStepId = c.messageStepId → st'.seq < anchor

/-- The run finds the user step that it edits, in a session of the user. -/
structure RunRequest.Finds (req : RunRequest) (d : ChatDb) (messageStepId : ℕ)
    (session : ChatSession) (anchor : ChatStep) : Prop where
  session_mem : session ∈ d.sessions
  session_id : req.sessionId = some session.id
  user : session.userId = req.userId
  anchor_eq : d.anchor session.id messageStepId = some anchor

/-- The tables in which the edited turn, with the id `g`, has its user step. -/
def RunRequest.edited (cfg : Config) (req : RunRequest) (g : ℕ) (d : ChatDb) (session : ChatSession)
    (anchor : ChatStep) (prepared : Option PreparedAttachments) : ChatDb :=
  (d.truncate session.id anchor.seq).extend
    (stepDelta false session.id g (g + 1) (req.payload cfg prepared) none)

/-- A state after the edit. The session has the steps before the anchor, the new user step, and the
steps of whole rounds of the new turn and of its last message; nothing else is touched but by rows of
the user, and by a sweep of images with an expiry. -/
structure Edited (cfg : Config) (req : RunRequest) (g : ℕ) (d : ChatDb) (session : ChatSession)
    (anchor : ChatStep) (d' : ChatDb) : Prop where
  rows : ∃ (prepared : Option PreparedAttachments) (t : Turn) (rs : List Round) (last : List ChatStep),
    prepareOptional cfg req.attachments cfg.activeProvider = .ok prepared ∧
    (t.userId = req.userId ∧ t.sessionId = session.id ∧ t.messageStepId = g ∧ t.temporary = false) ∧
    (∀ r ∈ rs, ∃ g₀ d₀ g₁ d₁, r.Ok cfg t g₀ d₀ g₁ d₁) ∧ t.Closing last ∧
    d'.steps.filter (·.sessionId = session.id) =
      d.steps.filter (fun st => st.sessionId = session.id ∧ st.seq < anchor.seq) ++
        [⟨g + 1, session.id, g, req.payload cfg prepared, none⟩] ++ (roundsDelta t rs).steps ++ last ∧
    d'.toolCalls.filter (·.sessionId = session.id) =
      (d.truncate session.id anchor.seq).toolCalls.filter (·.sessionId = session.id) ++
        (roundsDelta t rs).toolCalls
  otherSteps : d'.steps.filter (·.sessionId ≠ session.id) = d.steps.filter (·.sessionId ≠ session.id)
  otherCalls : d'.toolCalls.filter (·.sessionId ≠ session.id) =
    d.toolCalls.filter (·.sessionId ≠ session.id)
  sessions : d'.sessions = d.sessions
  images : ∃ (new : List GeneratedImage) (swept : List ℕ),
    d'.images = (d.images ++ new).filter (fun i => ¬(i.expires = true ∧ i.id ∈ swept)) ∧
    ∀ i ∈ new, i.userId = req.userId
  accounts : OthersKept req.userId d.accounts d'.accounts
  trialUsed : ∀ v, v ≠ req.userId → d'.trialUsed v = d.trialUsed v
  keys : ∀ v, v ≠ req.userId → d'.keys v = d.keys v
  subscriptions : d'.subscriptions = d.subscriptions
  expired : d'.expired = d.expired

/-- An edit that cannot be made: its session is unknown, foreign or expired, it names no user step of
the session, or its attachments are refused. -/
inductive RunRequest.Refused (cfg : Config) (req : RunRequest) (d : ChatDb) (messageStepId : ℕ) : Prop
  | session (h : ∀ s ∈ d.sessions, req.sessionId = some s.id → s.userId = req.userId → s.id ∈ d.expired)
  | message (h : ∀ s ∈ d.sessions, req.sessionId = some s.id → s.userId = req.userId →
      d.anchor s.id messageStepId = none)
  | attachments {e : AppError} (h : prepareOptional cfg req.attachments cfg.activeProvider = .error e)

section Edit

variable {llm : LLMAnswer → Prop} {cfg : Config} {t : Turn} {g g' : ℕ} {d d' : ChatDb}
variable {req : RunRequest} {msid : ℕ} {session : ChatSession} {anchor : ChatStep}
variable {prepared : Option PreparedAttachments}

theorem Ready.edited {u m : ℕ} {temporary : Bool} {att : Option PreparedAttachments} {mem : ChatMem}
    (h : Ready cfg g d (.run req) u session m temporary att g' d' mem) (ht : req.temporary = false)
    (he : req.editMessageStepId = some msid) : u = req.userId ∧ m = g ∧ ∃ anchor prepared,
      req.Finds d msid session anchor ∧
        prepareOptional cfg req.attachments cfg.activeProvider = .ok prepared ∧
        d' = req.edited cfg g d session anchor prepared := by
  cases h with
  | run h =>
    refine ⟨rfl, rfl, ?_⟩
    cases h with
    | temporary htemp =>
      rw [ht] at htemp
      cases htemp
    | created _ _ _ _ hno | resumed _ _ _ _ _ hno =>
      rw [he] at hno
      cases hno
    | edited _ hp hs hid hu he' ha =>
      obtain rfl := Option.some.inj (he.symm.trans he')
      exact ⟨_, _, ⟨hs, hid, hu, ha⟩, hp, rfl⟩

/-- The states of the edit, before a sweep: rows of the new turn after its user step. -/
structure Continues (cfg : Config) (req : RunRequest) (msid g : ℕ) (session : ChatSession)
    (anchor : ChatStep) (prepared : Option PreparedAttachments) (t : Turn) (rs : List Round)
    (last : List ChatStep) (d d' : ChatDb) : Prop where
  finds : req.Finds d msid session anchor
  prepares : prepareOptional cfg req.attachments cfg.activeProvider = .ok prepared
  turn : t.userId = req.userId ∧ t.sessionId = session.id ∧ t.messageStepId = g ∧ t.temporary = false
  grows : (req.edited cfg g d session anchor prepared).Grows req.userId session.id g d'
  writes : t.Writes cfg rs last (req.edited cfg g d session anchor prepared) d'

/-- The states of the edit. -/
def EditGrows (cfg : Config) (req : RunRequest) (msid g : ℕ) (d d' : ChatDb) : Prop :=
  ∃ session anchor prepared t rs last d₂ ids,
    Continues cfg req msid g session anchor prepared t rs last d d₂ ∧ d' = d₂.sweep ids

@[simp] theorem ChatDb.sweep_nil (d : ChatDb) : d.sweep [] = d := by
  simp [ChatDb.sweep]

theorem Continues.editGrows {t : Turn} {rs : List Round} {last : List ChatStep}
    (h : Continues cfg req msid g session anchor prepared t rs last d d') :
    EditGrows cfg req msid g d d' :=
  ⟨_, _, _, _, _, _, d', [], h, d'.sweep_nil.symm⟩

theorem Sweeps.editGrows {t : Turn} {rs : List Round} {last : List ChatStep} {out : ChatRunOut}
    {d₂ : ChatDb} (h : Sweeps out d₂ d')
    (hc : Continues cfg req msid g session anchor prepared t rs last d d₂) :
    EditGrows cfg req msid g d d' := by
  cases h with
  | skipped => exact hc.editGrows
  | swept ids => exact ⟨_, _, _, _, _, _, _, ids, hc, rfl⟩

theorem Starts.edited {att : Option PreparedAttachments} {mem : ChatMem}
    (h : Starts cfg g d (.run req) t att g' d' mem) (ht : req.temporary = false)
    (he : req.editMessageStepId = some msid) : ∃ session anchor prepared,
      Continues cfg req msid g session anchor prepared t [] [] d d' := by
  cases h with
  | @intro _ _ _ temporary _ _ _ _ _ _ h hp hk =>
    have htemp : temporary = false := by
      cases h with
      | run => exact ht
    obtain ⟨rfl, rfl, anchor, prepared, hfinds, hprepares, rfl⟩ := h.edited ht he
    exact ⟨_, anchor, prepared, hfinds, hprepares, ⟨rfl, rfl, rfl, htemp⟩, .audit _ rfl,
      (Turn.Writes.refl ..).of_eq rfl rfl⟩

theorem Passes.edited {provider : Provider} {att : Option PreparedAttachments} {rs : List Round}
    {mem : ChatMem} (h : Passes llm cfg g d (.run req) t provider att rs g' d' mem)
    (ht : req.temporary = false) (he : req.editMessageStepId = some msid) :
    ∃ session anchor prepared, Continues cfg req msid g session anchor prepared t rs [] d d' := by
  cases h with
  | intro hs hp hg =>
    obtain ⟨session, anchor, prepared, hc⟩ := hs.edited ht he
    obtain ⟨hu, hsid, hm, -⟩ := hc.turn
    refine ⟨session, anchor, prepared, hc.finds, hc.prepares, hc.turn, hc.grows.trans ?_, hg.whole,
      .none, ?_, ?_⟩
    · rw [hg.eq, ← hu, ← hsid, ← hm]
      exact .extend (roundsDelta_mine hg)
    · rw [hg.writes.steps, hc.writes.steps]
      simp [roundsDelta]
    · rw [hg.writes.toolCalls, hc.writes.toolCalls]
      simp [roundsDelta]

theorem Settles.edited {out : ChatRunOut} (h : Settles cfg g d (.run req) out g' d')
    (ht : req.temporary = false) (he : req.editMessageStepId = some msid) :
    EditGrows cfg req msid g d d' := by
  cases h with
  | @denied _ m session _ _ _ _ _ _ h hp =>
    obtain ⟨rfl, rfl, anchor, prepared, hfinds, hprepares, rfl⟩ := h.edited ht he
    have hturn : ∃ t : Turn, t.userId = req.userId ∧ t.sessionId = session.id ∧ t.messageStepId = m ∧
        t.temporary = false :=
      ⟨turnOf req.userId session m false (d.policyState req.userId) none none, rfl, rfl, rfl, rfl⟩
    obtain ⟨t, hturn⟩ := hturn
    exact Continues.editGrows
      ⟨hfinds, hprepares, hturn, .audit _ rfl, (Turn.Writes.refl ..).of_eq rfl rfl⟩
  | noProvider h hm hp =>
    obtain ⟨session, anchor, prepared, hc⟩ := h.edited ht he
    exact hc.editGrows
  | awaiting hr | replayed hr => cases hr

theorem Visits.edited (h : Visits llm cfg g d (.run req) g' d') (ht : req.temporary = false)
    (he : req.editMessageStepId = some msid) : EditGrows cfg req msid g d d' := by
  cases h with
  | passed h =>
    obtain ⟨session, anchor, prepared, hc⟩ := h.edited ht he
    exact hc.editGrows
  | exhausted h =>
    obtain ⟨session, anchor, prepared, hc⟩ := h.edited ht he
    exact Continues.editGrows ⟨hc.finds, hc.prepares, hc.turn, hc.grows.trans (.audit _ hc.turn.1),
      hc.writes.of_eq rfl rfl⟩
  | answered h =>
    cases h with
    | settled h => exact h.edited ht he
    | ended h hl hends hs =>
      obtain ⟨session, anchor, prepared, hc⟩ := h.edited ht he
      obtain ⟨hu, hsid, hm, htemp⟩ := hc.turn
      obtain ⟨rs, last, hw⟩ := hends.writes htemp hc.writes
      refine hs.editGrows ⟨hc.finds, hc.prepares, hc.turn, hc.grows.trans ?_, hw⟩
      rw [← hu, ← hsid, ← hm]
      exact hends.grows

/-- What the edit leaves. -/
theorem Continues.edited {t : Turn} {rs : List Round} {last : List ChatStep}
    (h : Continues cfg req msid g session anchor prepared t rs last d d') (ids : List ℕ) :
    Edited cfg req g d session anchor (d'.sweep ids) := by
  obtain ⟨new, hsteps, hnew⟩ := h.grows.steps
  obtain ⟨calls, hcalls, hnewcalls⟩ := h.grows.toolCalls
  obtain ⟨images, himages, hmine⟩ := h.grows.images
  have hbase : (req.edited cfg g d session anchor prepared).steps =
      (d.truncate session.id anchor.seq).steps ++
        [⟨g + 1, session.id, g, req.payload cfg prepared, none⟩] := rfl
  have hbasecalls : (req.edited cfg g d session anchor prepared).toolCalls =
      (d.truncate session.id anchor.seq).toolCalls := List.append_nil _
  have hbaseimages : (req.edited cfg g d session anchor prepared).images = d.images :=
    List.append_nil _
  -- what is new is what the rounds and the last message have written
  have hnews : new = (roundsDelta t rs).steps ++ last := by
    have hw := h.writes.steps
    rw [hsteps, List.append_assoc] at hw
    exact List.append_cancel_left hw
  have hnewc : calls = (roundsDelta t rs).toolCalls := by
    have hw := h.writes.toolCalls
    rw [hcalls] at hw
    exact List.append_cancel_left hw
  refine ⟨⟨prepared, t, rs, last, h.prepares, h.turn, h.writes.whole, h.writes.closing, ?_, ?_⟩, ?_, ?_,
    h.grows.sessions, ⟨images, ids, ?_, hmine⟩, h.grows.accounts, h.grows.trialUsed, h.grows.keys,
    h.grows.subscriptions, h.grows.expired⟩
  · have hown : new.filter (·.sessionId = session.id) = new :=
      List.filter_eq_self.2 fun st hst => by simp [(hnew st hst).1]
    show d'.steps.filter _ = _
    rw [hsteps, hbase, List.filter_append, List.filter_append, hown, hnews, ← List.append_assoc,
      ChatDb.truncate, List.filter_filter]
    congr 3
    · refine List.filter_congr fun st _ => ?_
      by_cases hsid : st.sessionId = session.id <;> simp [hsid]
    · simp
  · have hown : calls.filter (·.sessionId = session.id) = calls :=
      List.filter_eq_self.2 fun c hc => by simp [(hnewcalls c hc).1]
    show d'.toolCalls.filter _ = _
    rw [hcalls, hbasecalls, List.filter_append, hown, hnewc]
  · have hnone : new.filter (·.sessionId ≠ session.id) = [] :=
      List.filter_eq_nil_iff.2 fun st hst => by simp [(hnew st hst).1]
    show d'.steps.filter _ = _
    rw [hsteps, hbase, List.filter_append, List.filter_append, hnone, ChatDb.truncate,
      List.filter_filter]
    simp only [ne_eq, not_true_eq_false, decide_false, List.filter_cons, List.filter_nil,
      Bool.false_eq_true, if_false, List.append_nil]
    refine List.filter_congr fun st _ => ?_
    by_cases hsid : st.sessionId = session.id <;> simp [hsid]
  · have hnone : calls.filter (·.sessionId ≠ session.id) = [] :=
      List.filter_eq_nil_iff.2 fun c hc => by simp [(hnewcalls c hc).1]
    show d'.toolCalls.filter _ = _
    rw [hcalls, hbasecalls, List.filter_append, hnone, List.append_nil, ChatDb.truncate,
      List.filter_filter]
    refine List.filter_congr fun c _ => ?_
    by_cases hsid : c.sessionId = session.id <;> simp [hsid]
  · rw [← hbaseimages, ← himages]
    rfl

/-- A step of `d` is left when it is of another session or before the anchor. -/
theorem ChatDb.Grows.mem_steps
    (h : (req.edited cfg g d session anchor prepared).Grows req.userId session.id g d')
    (hf : d.Fresh g) {st : ChatStep} (hst : st ∈ d.steps) :
    st ∈ d'.steps ↔ ¬(st.sessionId = session.id ∧ anchor.seq ≤ st.seq) := by
  obtain ⟨new, hsteps, hnew⟩ := h.steps
  have hold := (hf.steps st hst).2
  constructor
  · intro hmem
    rw [hsteps] at hmem
    rcases List.mem_append.1 hmem with hmem | hmem
    · rcases List.mem_append.1 hmem with hmem | hmem
      · exact of_decide_eq_true (List.mem_filter.1 hmem).2
      · rw [List.mem_singleton.1 hmem] at hold
        exact absurd hold (lt_irrefl g)
    · exact absurd (hnew st hmem).2 hold.ne
  · intro hleft
    rw [hsteps]
    refine List.mem_append_left _ (List.mem_append_left _ (List.mem_filter.2 ⟨hst, ?_⟩))
    exact decide_eq_true hleft

/-- A call of `d` is left when no step of its turn is deleted. -/
theorem ChatDb.Grows.mem_toolCalls
    (h : (req.edited cfg g d session anchor prepared).Grows req.userId session.id g d')
    (hf : d.Fresh g) {c : ToolCall} (hc : c ∈ d.toolCalls) :
    c ∈ d'.toolCalls ↔ ¬(c.sessionId = session.id ∧ ∃ st ∈ d.steps, st.sessionId = session.id ∧
      anchor.seq ≤ st.seq ∧ st.messageStepId = c.messageStepId) := by
  obtain ⟨new, hcalls, hnew⟩ := h.toolCalls
  have hold := (hf.toolCalls c hc).2
  have hturns : c.messageStepId ∈ (d.stepsFrom session.id anchor.seq).map (·.messageStepId) ↔
      ∃ st ∈ d.steps, st.sessionId = session.id ∧ anchor.seq ≤ st.seq ∧
        st.messageStepId = c.messageStepId := by
    simp [ChatDb.stepsFrom, and_assoc]
  rw [← hturns]
  constructor
  · intro hmem
    rw [hcalls] at hmem
    rcases List.mem_append.1 hmem with hmem | hmem
    · rcases List.mem_append.1 hmem with hmem | hmem
      · exact of_decide_eq_true (List.mem_filter.1 hmem).2
      · cases hmem
    · exact absurd (hnew c hmem).2 hold.ne
  · intro hleft
    rw [hcalls]
    refine List.mem_append_left _ (List.mem_append_left _ (List.mem_filter.2 ⟨hc, ?_⟩))
    exact decide_eq_true hleft

/-- **The calls and their blocks** stay together if and only if no turn that has issued a call
before the anchor goes on after it. -/
theorem ChatDb.Grows.keepsCalls_iff
    (h : (req.edited cfg g d session anchor prepared).Grows req.userId session.id g d')
    (hf : d.Fresh g) : KeepsCalls d d' ↔ d.Separate session.id anchor.seq := by
  constructor
  · intro hkeeps c hc hs st hst hissues hlt st' hst' hs' hm'
    by_contra hge
    have hleft : st ∈ d'.steps := (h.mem_steps hf hst).2 fun hcut => absurd hlt (Nat.not_lt.2 hcut.2)
    exact (h.mem_toolCalls hf hc).1 (hkeeps.calls st hst hleft c hc hissues)
      ⟨hs, st', hst', hs', Nat.not_lt.1 hge, hm'⟩
  · intro hseparate
    refine ⟨fun st hst hleft c hc hissues => (h.mem_toolCalls hf hc).2 ?_,
      fun c hc hleft st hst hissues => (h.mem_steps hf hst).2 ?_⟩
    · rintro ⟨hs, st', hst', hs', hge, hm'⟩
      have hlt : st.seq < anchor.seq := by
        by_contra hno
        exact (h.mem_steps hf hst).1 hleft ⟨hissues.1.trans hs, Nat.not_lt.1 hno⟩
      exact absurd (hseparate c hc hs st hst hissues hlt st' hst' hs' hm') (Nat.not_lt.2 hge)
    · rintro ⟨hs, hge⟩
      exact (h.mem_toolCalls hf hc).1 hleft ⟨hissues.1.symm.trans hs, st, hst, hs, hge, hissues.2.1⟩

/-- The edit as the claim has it, of the message that was found. -/
def EditedAs (cfg : Config) (req : RunRequest) (msid g : ℕ) (d d' : ChatDb) : Prop :=
  ∃ session anchor, req.Finds d msid session anchor ∧ Edited cfg req g d session anchor d' ∧
    (KeepsCalls d d' ↔ d.Separate session.id anchor.seq)

/-- A sweep leaves the steps and the calls. -/
theorem keepsCalls_sweep (d d' : ChatDb) (ids : List ℕ) : KeepsCalls d (d'.sweep ids) ↔ KeepsCalls d d' :=
  ⟨fun h => ⟨h.calls, h.blocks⟩, fun h => ⟨h.calls, h.blocks⟩⟩

theorem EditGrows.editedAs (h : EditGrows cfg req msid g d d') (hf : d.Fresh g) :
    EditedAs cfg req msid g d d' := by
  obtain ⟨session, anchor, prepared, t, rs, last, d₂, ids, hc, rfl⟩ := h
  exact ⟨session, anchor, hc.finds, hc.edited ids,
    (keepsCalls_sweep ..).trans (hc.grows.keepsCalls_iff hf)⟩

theorem Leaves.edited (h : Leaves llm cfg g d (.run req) g' d') (hf : d.Fresh g)
    (ht : req.temporary = false) (he : req.editMessageStepId = some msid) :
    d' = d ∨ EditedAs cfg req msid g d d' := by
  obtain ⟨-, hsame | ⟨g₁, -, hv⟩⟩ := h
  · exact .inl hsame
  · exact .inr ((hv.edited ht he).editedAs hf)

/-- An edit that is refused raises before it commits anything. -/
theorem run_refused_wp {commit : ChatWorld → Prop} (hf : d.Fresh g) (ht : req.temporary = false)
    (he : req.editMessageStepId = some msid) (h : req.Refused cfg d msid) :
    (run cfg req).wp (chatStore llm).step (watch commit fun _ _ => True)
      (fun o w => w.db = d ∧ ∃ e, o = .error e ∧ e.Refusal) ⟨d, d, g, ⟨[], [], []⟩⟩ := by
  have hf₁ := hf.mono (Nat.le_succ g)
  unfold run
  rw [bind_eq, wp_bind]
  refine uuid4_wp ?_
  simp only [bindPost]
  rw [bind_eq, wp_bind]
  refine openRepository_wp (fun htemp => ?_) fun _ => ?_
  · rw [ht] at htemp
    cases htemp
  simp only [bindPost]
  rw [bind_eq, wp_bind]
  refine openSession_wp (fun htemp => ?_) (fun _ s hs _ => ?_) (fun _ s hmem hid hu hlive => ?_)
    fun e hr => ⟨rfl, e, rfl, hr⟩
  · rw [ht] at htemp
    cases htemp
  · -- a new session has no step to edit
    simp only [bindPost]
    rw [bind_eq, wp_bind]
    refine truncateForEdit_wp (hf₁.addSession hs) (fun hno => ?_)
      (fun _ _ _ _ hnew => absurd hnew (by simp)) fun e hr => ⟨rfl, e, rfl, hr⟩
    rw [he] at hno
    cases hno
  · simp only [bindPost]
    rw [bind_eq, wp_bind]
    refine truncateForEdit_wp hf₁ (fun hno => ?_) (fun _ msid' anchor he' _ ha => ?_)
      fun e hr => ⟨rfl, e, rfl, hr⟩
    · rw [he] at hno
      cases hno
    obtain rfl := Option.some.inj (he.symm.trans he')
    cases h with
    | session h => exact absurd (h s hmem hid hu) hlive
    | message h =>
      have hnone : d.anchor s.id msid = none := h s hmem hid hu
      rw [show d.anchor s.id msid = some anchor from ha] at hnone
      cases hnone
    | @attachments e h =>
      simp only [bindPost]
      rw [bind_eq, wp_bind]
      refine workspaceAttachments_wp fun workspace _ => ?_
      simp only [bindPost]
      rw [bind_eq, wp_bind]
      refine liftExcept_wp (fun prepared hp => ?_) fun e hr => ⟨rfl, e, rfl, prepareOptional_refusal hr⟩
      rw [h] at hp
      cases hp

theorem request_refused_wp (hf : d.Fresh g) (ht : req.temporary = false)
    (he : req.editMessageStepId = some msid) (h : req.Refused cfg d msid) :
    ((ChatRequest.run req).prog cfg).wp (chatStore llm).step
      (watch (fun w => w.work = d) fun _ _ => True)
      (fun o w => w.db = d ∧ ∃ e, o = .error e ∧ e.Refusal) (idle g d) := by
  show (TxProg.sessionScope (run cfg req)).wp _ _ _ _
  unfold TxProg.sessionScope
  rw [wp_tryCatch, wp_bind]
  refine wp_mono (fun o w hw => ?_) (run_refused_wp hf ht he h)
  obtain ⟨hdb, e, rfl, hrefusal⟩ := hw
  simp only [bindPost, catchPost, TxProg.rollback, act_bind, ret_bind, Store.wp_rollback]
  exact ⟨trivial, hdb, e, rfl, hrefusal⟩

/-- **Editing a message.** Every state that an edit commits, also when it is stopped, is the state
before or the truncated history with the new user step and whole rounds of its turn; an edit that
answers has committed the latter. An edit that cannot be made ends with an error, with the tables as
they were. In an edited state the calls that are left and their tool blocks belong together if and only
if no turn that has issued a call before the message goes on after it. -/
theorem edit_truncates {ok : ℕ → ChatDb → ChatRequest → Prop} (h : Reached llm cfg ok g d)
    (ht : req.temporary = false) (he : req.editMessageStepId = some msid) :
    (∀ e w, Reaches (chatStore llm).step ((ChatRequest.run req).prog cfg) (idle g d) e w →
      w.db = d ∨ EditedAs cfg req msid g d w.db) ∧
    (∀ o w, Runs (chatStore llm).step ((ChatRequest.run req).prog cfg) (idle g d) o w →
      w.db = d ∨ EditedAs cfg req msid g d w.db) ∧
    (∀ out w, Runs (chatStore llm).step ((ChatRequest.run req).prog cfg) (idle g d) (.ok out) w →
      EditedAs cfg req msid g d w.db) ∧
    (req.Refused cfg d msid →
      (∀ e w, Reaches (chatStore llm).step ((ChatRequest.run req).prog cfg) (idle g d) e w → w.db = d) ∧
      ∀ o w, Runs (chatStore llm).step ((ChatRequest.run req).prog cfg) (idle g d) o w →
        w.db = d ∧ ∃ e, o = .error e ∧ e.Refusal) := by
  have hf := h.fresh
  refine ⟨fun e w hr => (leaves_of_reaches hf hr).edited hf ht he,
    fun o w hr => (leaves_of_runs hf hr).edited hf ht he, fun out w hr => ?_,
    fun hrefused => ⟨fun e w hr => ?_, fun o w hr => hr.of_wp (request_refused_wp hf ht he hrefused)⟩⟩
  · obtain ⟨-, ha⟩ := answers_of_runs hf hr
    have hv : Visits llm cfg g d (.run req) w.gen w.db := .answered ha
    exact (hv.edited ht he).editedAs hf
  · obtain ⟨-, -, hdb⟩ := committed_of_reaches (I := fun _ d' => d' = d) hr
      (request_refused_wp hf ht he hrefused) ⟨g, le_rfl, rfl⟩
    exact hdb

end Edit

/-! ## Turns that interleave -/

/-- A message in the session, or the edit of one. -/
def inSession (edited : Option ℕ) : RunRequest :=
  { byokMessage "smart" with sessionId := some 1, editMessageStepId := edited }

/-- The model answers. -/
def oneMessage : Script := oneAnswer (.result answered)

/-- A session with one message. -/
def messageSent : ℕ × ChatDb :=
  serveList openaiInstance [(.run (byokMessage "smart"), oneMessage)] 0 funded

/-- The model calls a tool of the client, which sends another message before the result. -/
def mixedTurns : ℕ × ChatDb :=
  serveList openaiInstance [(.run (byokMessage "smart"), oneAnswer (.result asking)),
    (.run (inSession none), oneMessage), (delivered, oneMessage)] 0 (keyed .openai)

theorem messageSent_reached :
    Reached anyProvider openaiInstance (fun _ _ _ => True) messageSent.1 messageSent.2 :=
  serveList_reached _ (funded_reached openaiInstance)

/-- The message is edited, and its turn draws an image in a whole round; the edit of a message that
the session does not have changes nothing. -/
theorem edit_truncates_message :
    (∃ g d out w, Runs (chatStore anyProvider).step
      ((ChatRequest.run (inSession (some 0))).prog openaiInstance) (idle g d) (.ok out) w ∧
      EditedAs openaiInstance (inSession (some 0)) 0 g d w.db ∧ w.db.images ≠ []) ∧
    ∃ g d o w, Runs (chatStore anyProvider).step
      ((ChatRequest.run (inSession (some 7))).prog openaiInstance) (idle g d) o w ∧
      w.db = d ∧ ∃ e, o = .error e ∧ e.Refusal := by
  constructor
  · have hserved : answersWith (fun _ w => !w.db.images.isEmpty) (serveOne openaiInstance
        (drawingThen (.result answered)) (.run (inSession (some 0))) messageSent.1 messageSent.2) =
        true := by
      decide +kernel
    obtain ⟨out, w, hr, hi⟩ := exists_of_answersWith hserved
    exact ⟨_, _, out, w, hr, (edit_truncates messageSent_reached rfl rfl).2.2.1 out _ hr,
      fun hnil => by simp [hnil] at hi⟩
  · have hr := serveOne_runs openaiInstance oneMessage (.run (inSession (some 7))) messageSent.1
      messageSent.2
    have hnone : (messageSent.2.sessions.all fun s => (messageSent.2.anchor s.id 7).isNone) = true := by
      decide +kernel
    have hrefused : (inSession (some 7)).Refused openaiInstance messageSent.2 7 :=
      .message fun s hs _ _ => Option.isNone_iff_eq_none.1 (List.all_eq_true.1 hnone s hs)
    exact ⟨_, _, _, _, hr, ((edit_truncates messageSent_reached rfl rfl).2.2.2 hrefused).2 _ _ hr⟩

/-- With the second message of the mixed turns the call of the first is lost, whose block is left. -/
theorem edit_truncates_fails : ∃ g d out w, Reached anyProvider openaiInstance (fun _ _ _ => True) g d ∧
    Runs (chatStore anyProvider).step ((ChatRequest.run (inSession (some 5))).prog openaiInstance)
      (idle g d) (.ok out) w ∧ ¬KeepsCalls d w.db := by
  have hr := serveOne_runs openaiInstance oneMessage (.run (inSession (some 5))) mixedTurns.1
    mixedTurns.2
  have htold : told "done" (serveOne openaiInstance oneMessage (.run (inSession (some 5)))
      mixedTurns.1 mixedTurns.2).1 = true := by
    decide +kernel
  have hseq : (mixedTurns.2.anchor 1 5).map (·.seq) = some 6 := by decide +kernel
  have hmixed : ¬mixedTurns.2.Separate 1 6 := by decide +kernel
  obtain ⟨out, hout, -⟩ := exists_of_told htold
  rw [hout] at hr
  have hreached : Reached anyProvider openaiInstance (fun _ _ _ => True) mixedTurns.1 mixedTurns.2 :=
    serveList_reached _ (keyed_reached openaiInstance .openai)
  refine ⟨_, _, out, _, hreached, hr, fun hkeeps => ?_⟩
  obtain ⟨-, ha⟩ := answers_of_runs hreached.fresh hr
  have hgrown : EditGrows openaiInstance (inSession (some 5)) 5 mixedTurns.1 mixedTurns.2 _ :=
    (Visits.answered ha).edited rfl rfl
  obtain ⟨session, anchor, prepared, t, rs, last, d₂, ids, ⟨hfinds, -, -, hgrows, -⟩, hsweep⟩ := hgrown
  have hid : 1 = session.id := Option.some.inj hfinds.session_id
  have hanchor := hfinds.anchor_eq
  rw [← hid] at hanchor
  rw [hanchor] at hseq
  have hkeeps : KeepsCalls mixedTurns.2 d₂ := (keepsCalls_sweep _ _ ids).1 (hsweep ▸ hkeeps)
  have hseparate := (hgrows.keepsCalls_iff hreached.fresh).1 hkeeps
  rw [← hid, show anchor.seq = 6 from Option.some.inj hseq] at hseparate
  exact hmixed hseparate

end ChatBackend.Chat
