import ChatBackend.Chat.Script
import ChatBackend.Chat.TextBilling

/-!
# The billing of messages

The final message of a generated turn is stored in the transaction that debits one credit under the
id of the turn, or that uses up the trial. `text_billing` says so of every history: no turn has two
debits, no other answer has any, and no user has two messages under the trial.
-/

namespace ChatBackend.Chat

open Prog Wallet Policy

/-! ## The endings -/

/-- A debit is due for a turn of a request that began on `d`: the subscription of its user is active. -/
def Turn.DebitDue (t : Turn) (d : ChatDb) : Prop :=
  t.mode = .credits ∧ d.subscriptions t.userId = .active

/-- The trial is due: its user has never had a subscription, nor used up the trial. -/
def Turn.TrialDue (t : Turn) (d : ChatDb) : Prop :=
  t.mode = .credits ∧ d.subscriptions t.userId = .none ∧ d.trialUsed t.userId = false

/-- What was due on `d` has been paid in `d'`. -/
def Turn.Paid (t : Turn) (d d' : ChatDb) : Prop :=
  (t.DebitDue d → ∃ r ∈ d'.texts, r.key = (t.userId, .uuid t.messageStepId)) ∧
    (t.TrialDue d → d'.trialUsed t.userId = true)

/-- The step of a final message. -/
def Turn.finalStep (t : Turn) (g : ℕ) (result : LLMResult) : ChatStep :=
  ⟨g, t.sessionId, t.messageStepId, .assistant result.contentBlocks, some result.usage⟩

section Endings

variable {llm : LLMAnswer → Prop} {cfg : Config} {t : Turn} {g g' : ℕ} {d d' : ChatDb}
variable {request : ChatRequest} {acc : Acc} {answer : LLMAnswer} {pregen : Pregen}
variable {out : ChatRunOut} {old : LedgerTransaction → Prop}

/-- **The debits of an ending**: a message for which one is due has it, and nothing else has. -/
theorem Ends.texts (h : Ends cfg t acc g d answer pregen out g' d') (hf : d.Fresh g)
    (hl : t.TextLaw d) (hi : t.ImageLaw cfg old d) :
    (t.billing.debitCredits = false ∨ out.status ≠ .assistantMessage → d'.texts = d.texts) ∧
      (t.billing.debitCredits = true → out.status = .assistantMessage → ∃ r,
        d'.texts = d.texts ++ [r] ∧ r.key = (t.userId, .uuid t.messageStepId)) := by
  have hsame : d'.texts = d.texts → out.status ≠ .assistantMessage →
      (t.billing.debitCredits = false ∨ out.status ≠ .assistantMessage → d'.texts = d.texts) ∧
      (t.billing.debitCredits = true → out.status = .assistantMessage → ∃ r,
        d'.texts = d.texts ++ [r] ∧ r.key = (t.userId, .uuid t.messageStepId)) :=
    fun htexts hstatus => ⟨fun _ => htexts, fun _ h => absurd h hstatus⟩
  cases h with
  | final h hb =>
    obtain ⟨hended, htexts⟩ := hl.ended g _ []
    have hlaw := hb.textLaw hended (hi.ended _ _ _) (hl.ended_finished hf _ _)
    rw [← htexts]
    refine ⟨fun hfree => ?_, fun hdebit _ => ?_⟩
    · rcases hfree with hfree | hno
      · exact hlaw.free hfree
      · exact absurd rfl hno
    · obtain ⟨r, hr, hkey, -⟩ := hlaw.debit hdebit
      exact ⟨r, hr, hkey⟩
  | unpaid | poor => exact hsame rfl nofun
  | maxTokens h => exact hsame (hl.ended _ _ _).2 nofun
  | client hr hc =>
    exact hsame ((congrArg ChatDb.texts hr.eq).trans (texts_extend hr.of.texts)) nofun
  | expired h =>
    refine hsame ?_ nofun
    split
    · exact texts_pay (d := d.expireKey t.userId) rfl
    · rfl

/-- The trial stays used. -/
theorem Ends.trialUsed (h : Ends cfg t acc g d answer pregen out g' d') {u : ℕ}
    (hused : d.trialUsed u = true) : d'.trialUsed u = true := by
  cases h with
  | final h hb =>
    cases hb with
    | charged | replayed | free => exact hused
    | trial =>
      show Function.update d.trialUsed t.userId true u = true
      by_cases hu : u = t.userId
      · rw [hu, Function.update_self]
      · rw [Function.update_of_ne hu]
        exact hused
  | client hr hc =>
    rw [hr.eq]
    exact hused
  | unpaid | poor | maxTokens => exact hused
  | expired h => split <;> exact hused

/-- A message under the trial uses it up. -/
theorem Ends.trial (h : Ends cfg t acc g d answer pregen out g' d')
    (hfree : t.billing.debitCredits = false) (hmark : t.billing.markTrial = true)
    (hstatus : out.status = .assistantMessage) : d'.trialUsed t.userId = true := by
  cases h with
  | final h hb =>
    cases hb with
    | charged hdebit | replayed hdebit =>
      rw [hfree] at hdebit
      cases hdebit
    | trial => exact Function.update_self ..
    | free _ hno =>
      rw [hmark] at hno
      cases hno
  | unpaid | poor | maxTokens | client | expired => cases hstatus

/-- A turn is billed as the tables have it on which its request began. -/
theorem Passes.billing {provider : Provider} {att : Option PreparedAttachments} {rs : List Round}
    {mem : ChatMem} (h : Passes llm cfg g d request t provider att rs g' d' mem) (hf : d.Fresh g) :
    (t.billing.debitCredits = true ↔ t.DebitDue d) ∧ (t.billing.markTrial = true ↔ t.TrialDue d) := by
  cases h with
  | intro hs hp hg =>
    cases hs with
    | @intro u messageStepId session temporary att g₁ d₁ m apiKey byokProvider h hallowed hkey =>
      have hkeeps := h.keeps hf
      have hstatus : (d₁.policyState u).subscriptionStatus = d.subscriptions u :=
        congrFun hkeeps.subscriptions u
      have hused : (d₁.policyState u).trialUsed = d.trialUsed u := congrFun hkeeps.trialUsed u
      simp only [turnOf, Turn.DebitDue, Turn.TrialDue, billingPlan, hstatus, hused]
      cases session.mode with
      | byok => simp
      | credits => grind

/-- The plan is a debit, the trial, or nothing. -/
theorem Passes.exclusive {provider : Provider} {att : Option PreparedAttachments} {rs : List Round}
    {mem : ChatMem} (h : Passes llm cfg g d request t provider att rs g' d' mem) (hf : d.Fresh g)
    (hdue : t.TrialDue d) : t.billing.debitCredits = false := by
  by_contra hdebit
  have hactive := ((h.billing hf).1.1 (by simpa using hdebit)).2
  rw [hdue.2.1] at hactive
  cases hactive

/-- **A final message** of a stored turn is stored if and only if what is due has been paid. -/
theorem Passes.stored {provider : Provider} {att : Option PreparedAttachments} {rs : List Round}
    {mem : ChatMem} {g₁ : ℕ} {d₁ : ChatDb} {result : LLMResult}
    (h : Passes llm cfg g d request t provider att rs g₁ d₁ mem) (hf : d.Fresh g)
    (he : Ends cfg t acc g₁ d₁ (.result result) pregen out g' d') (hl : t.TextLaw d₁)
    (hi : t.ImageLaw cfg old d₁) (hstored : t.temporary = false) (hfinal : result.Final) :
    t.finalStep g₁ result ∈ d'.steps ↔ t.Paid d d' := by
  have hf₁ := (h.fresh hf).2.2
  obtain ⟨hdebit, hmark⟩ := h.billing hf
  have htexts := he.texts hf₁ hl hi
  have htrial := he.trial
  cases he with
  | final h' hb =>
    refine iff_of_true ?_ ⟨fun hdue => ?_, fun hdue => htrial (h.exclusive hf hdue) (hmark.2 hdue) rfl⟩
    · rw [hb.rows.2]
      simp [Turn.ended, ChatDb.pay, ChatDb.extend, stepDelta, hstored, Turn.finalStep]
    · obtain ⟨r, hr, hkey⟩ := htexts.2 (hdebit.2 hdue) rfl
      exact ⟨r, by simp [hr], hkey⟩
  | unpaid h' hplan hk hb hg =>
    refine iff_of_false (fun hmem => lt_irrefl g₁ (hf₁.steps _ hmem).1) fun hpaid => ?_
    obtain ⟨r, hr, hkey⟩ := hpaid.1 (hdebit.1 hplan)
    exact hk r (List.mem_of_mem_filter hr) hkey
  | maxTokens hreason => exact absurd hreason hfinal.ne_maxTokens
  | client hr hc => exact absurd (hfinal.toolUses_eq_nil hr.reason) hr.uses
  | poor hreason hp =>
    rw [hfinal.toolUses_eq_nil hreason] at hp
    cases hp

theorem Settles.texts (h : Settles cfg g d request out g' d') (hf : d.Fresh g) (hl : TextLaw d) :
    d'.texts = d.texts := by
  cases h with
  | denied h hp => exact (texts_pay rfl).trans (h.textLaw hf hl).2.1
  | noProvider h hm hp => exact (h.textLaw hf hl).2
  | awaiting hr h => exact texts_deliverAll ..
  | replayed hr h => exact texts_deliverAll ..

/-- The trial stays used in all that a request commits. -/
theorem Visits.trialUsed (h : Visits llm cfg g d request g' d') (hf : d.Fresh g) (hl : TextLaw d)
    {u : ℕ} (hused : d.trialUsed u = true) : d'.trialUsed u = true := by
  cases h with
  | passed h => rwa [(h.textLaw hf hl).2.2]
  | exhausted h => exact (congrFun (h.textLaw hf hl).2.2 u).trans hused
  | answered h =>
    cases h with
    | settled h => rwa [(h.keeps hf).trialUsed]
    | ended h hl' he hs =>
      rw [hs.kept.trialUsed]
      refine he.trialUsed ?_
      rwa [(h.textLaw hf hl).2.2]

end Endings

/-! ## The billing of every history -/

/-- The request was answered by a message under the trial of the user. -/
def Served.TrialMessage (llm : LLMAnswer → Prop) (cfg : Config) (u : ℕ) (s : Served) : Prop :=
  ∃ t provider att rs g₁ d₁ mem answer pregen out d₂, s.out = some out ∧
    Passes llm cfg s.gen s.db s.request t provider att rs g₁ d₁ mem ∧ llm answer ∧
    Ends cfg t (accOf rs) g₁ d₁ answer pregen out s.gen' d₂ ∧ Sweeps out d₂ s.db' ∧ t.userId = u ∧
    t.TrialDue s.db ∧ out.status = .assistantMessage

section Histories

variable {llm : LLMAnswer → Prop} {cfg : Config} {ok : ℕ → ChatDb → ChatRequest → Prop}
variable {hs : List Served} {g : ℕ} {d : ChatDb} {request : ChatRequest}

/-- **One message under the trial**: it is used up by the first. -/
theorem History.trial (h : History llm cfg ok hs g d) (u : ℕ) :
    hs.Pairwise (fun s s' => ¬(s.TrialMessage llm cfg u ∧ s'.TrialMessage llm cfg u)) ∧
      ∀ s ∈ hs, s.TrialMessage llm cfg u → d.trialUsed u = true := by
  let motive : List Served → ℕ → ChatDb → Prop := fun hs _ d =>
    hs.Pairwise (fun s s' => ¬(s.TrialMessage llm cfg u ∧ s'.TrialMessage llm cfg u)) ∧
      ∀ s ∈ hs, s.TrialMessage llm cfg u → d.trialUsed u = true
  refine (h.cases (motive := motive) ⟨.nil, fun s hs => absurd hs List.not_mem_nil⟩ ?_ ?_).2
  · rintro hs g d request o g' d' h hf ⟨hpair, hused⟩ hok hleaves -
    have hl := Reached.textLaw ⟨hs, h⟩
    refine ⟨List.pairwise_append.2 ⟨hpair, List.pairwise_singleton _ _, ?_⟩, fun s hs htrial => ?_⟩
    · rintro s hs s' hs' ⟨htrial, htrial'⟩
      obtain rfl := List.mem_singleton.1 hs'
      obtain ⟨t, provider, att, rs, g₁, d₁, mem, answer, pregen, out, d₂, -, hp, -, -, -, rfl, hdue, -⟩ :=
        htrial'
      have hunused := hdue.2.2
      rw [hused s hs htrial] at hunused
      cases hunused
    · rcases List.mem_append.1 hs with hs | hs
      · obtain ⟨-, hsame | ⟨g₁, -, hv⟩⟩ := hleaves
        · rw [hsame]
          exact hused s hs htrial
        · exact hv.trialUsed hf hl (hused s hs htrial)
      · obtain rfl := List.mem_singleton.1 hs
        obtain ⟨t, provider, att, rs, g₁, d₁, mem, answer, pregen, out, d₂, -, hp, -, he, hsweep, rfl,
          hdue, hstatus⟩ := htrial
        rw [hsweep.kept.trialUsed]
        exact he.trial (hp.exclusive hf hdue) ((hp.billing hf).2.2 hdue) hstatus
  · rintro hs g d ops _ _ _ h hf hI hk
    exact hI

end Histories

/-! ## A message that is paid for -/

end ChatBackend.Chat
