import ChatBackend.Chats.Listing
import ChatBackend.Foundations.OrderBy

/-!
# The order of the steps that a user sees

The orchestrator replays the steps of a session in the order of `seq`. The readers of the chats order
by `created_at` and `id` instead, which is the same order exactly for sessions whose steps were created
in the order of `seq`, those of one transaction by their random ids (`user_order`).
-/

namespace ChatBackend.Chats

open Chat Keyset

/-- A row of `chat_steps`. -/
structure ChatStepRow where
  id : Uuid
  seq : ℕ
  sessionId : Uuid
  messageStepId : Uuid
  role : String
  payload : Dict
  createdAt : Timestamp

/-- The table: `id` is its primary key, and `seq` an identity. -/
structure ChatSteps where
  rows : List ChatStepRow
  ids : (rows.map ChatStepRow.id).Nodup
  seqs : (rows.map ChatStepRow.seq).Nodup

/-- `created_at, id`. -/
def ChatStepRow.createdKey (row : ChatStepRow) : Timestamp ×ₗ Uuid := toLex (row.createdAt, row.id)

section Readers

variable (t : ChatSteps) (sessionId : Uuid)

def ChatSteps.ofSession : List ChatStepRow := t.rows.filter fun row => row.sessionId = sessionId

/-- `ChatRepository.list_steps`, of which the messages for the model are made. -/
def replayedSteps : List ChatStepRow := orderBy ChatStepRow.seq (t.ofSession sessionId)

/-- `ChatsRepository.list_steps`, the steps of the history. -/
def listSteps : List ChatStepRow := orderBy ChatStepRow.createdKey (t.ofSession sessionId)

/-- `latest_message_step_id`. -/
def latestMessageStepId : Option Uuid :=
  (sorted ChatStepRow.createdKey (t.ofSession sessionId)).head?.map (·.messageStepId)

/-- `steps_for_message`, the steps of the steps view. -/
def stepsForMessage (messageStepId : Uuid) : List ChatStepRow :=
  orderBy ChatStepRow.createdKey
    ((t.ofSession sessionId).filter fun row => row.messageStepId = messageStepId)

/-- The step whose text `_preview` shows. -/
def previewStep : Option ChatStepRow :=
  (sorted ChatStepRow.createdKey ((t.ofSession sessionId).filter fun row =>
    row.role = "user" || row.role = "assistant")).head?

/-- The readers follow the order in which the steps are replayed. -/
structure FollowsReplay : Prop where
  history : listSteps t sessionId = replayedSteps t sessionId
  stepsView : ∀ messageStepId, stepsForMessage t sessionId messageStepId =
    (replayedSteps t sessionId).filter fun row => row.messageStepId = messageStepId
  latestMessage : latestMessageStepId t sessionId =
    (replayedSteps t sessionId).getLast?.map (·.messageStepId)
  preview : previewStep t sessionId = ((replayedSteps t sessionId).filter fun row =>
    row.role = "user" || row.role = "assistant").getLast?

/-- The steps of the session were created in the order of `seq`; of those of one time, the ids are in
this order. -/
def CreatedInOrder : Prop :=
  ∀ a ∈ t.rows, ∀ b ∈ t.rows, a.sessionId = sessionId → b.sessionId = sessionId → a.seq < b.seq →
    a.createdAt < b.createdAt ∨ a.createdAt = b.createdAt ∧ a.id < b.id

end Readers

section Order

variable {t : ChatSteps} {sessionId : Uuid}

theorem seq_inj : ∀ a ∈ t.ofSession sessionId, ∀ b ∈ t.ofSession sessionId, a.seq = b.seq → a = b :=
  fun _ ha _ hb => List.inj_on_of_nodup_map t.seqs (List.mem_of_mem_filter ha)
    (List.mem_of_mem_filter hb)

theorem createdKey_inj : ∀ a ∈ t.ofSession sessionId, ∀ b ∈ t.ofSession sessionId,
    a.createdKey = b.createdKey → a = b := by
  intro a ha b hb he
  refine List.inj_on_of_nodup_map t.ids (List.mem_of_mem_filter ha) (List.mem_of_mem_filter hb) ?_
  exact congrArg (fun k : Timestamp ×ₗ Uuid => (ofLex k).2) he

/-- The history is replayed in its order exactly if the steps were created in it. -/
theorem listSteps_eq_iff :
    listSteps t sessionId = replayedSteps t sessionId ↔ CreatedInOrder t sessionId := by
  rw [listSteps, replayedSteps, orderBy_eq_iff createdKey_inj seq_inj]
  have hlt : ∀ a b : ChatStepRow, a.createdKey < b.createdKey ↔
      a.createdAt < b.createdAt ∨ a.createdAt = b.createdAt ∧ a.id < b.id := by
    intro a b
    rw [Prod.Lex.lt_iff]
    rfl
  have hmem : ∀ a, a ∈ t.ofSession sessionId ↔ a ∈ t.rows ∧ a.sessionId = sessionId := by
    intro a
    rw [ChatSteps.ofSession, List.mem_filter, decide_eq_true_eq]
  simp only [hlt, hmem, CreatedInOrder]
  exact ⟨fun h a ha b hb hsa hsb => h a ⟨ha, hsa⟩ b ⟨hb, hsb⟩,
    fun h a ha b hb => h a ha.1 b hb.1 ha.2 hb.2⟩

/-- **The order that a user sees.** -/
theorem user_order : FollowsReplay t sessionId ↔ CreatedInOrder t sessionId := by
  refine ⟨fun h => listSteps_eq_iff.1 h.history, fun h => ?_⟩
  have hhistory := listSteps_eq_iff.2 h
  have hlast : ∀ p : ChatStepRow → Bool,
      (sorted ChatStepRow.createdKey ((t.ofSession sessionId).filter p)).head? =
        ((replayedSteps t sessionId).filter p).getLast? := by
    intro p
    rw [head?_sorted fun a ha b hb => createdKey_inj a (List.mem_of_mem_filter ha) b
      (List.mem_of_mem_filter hb), orderBy_filter createdKey_inj]
    exact congrArg (fun l : List ChatStepRow => (l.filter p).getLast?) hhistory
  refine ⟨hhistory, fun messageStepId => ?_, ?_, hlast _⟩
  · rw [stepsForMessage, orderBy_filter createdKey_inj]
    exact congrArg (List.filter _) hhistory
  · rw [latestMessageStepId]
    have := hlast fun _ => true
    rw [List.filter_true, List.filter_true] at this
    rw [this]

end Order

theorem turnTime_valid : (⟨2024, 2, 29, 12, 0, 0, 0⟩ : DateTime).Valid := by decide

/-- Some time. -/
def turnTime : Timestamp := ⟨⟨2024, 2, 29, 12, 0, 0, 0⟩, turnTime_valid⟩

/-- The two steps of one transaction: a call of a tool, and its result, which has the smaller id. -/
def toolRound : ChatSteps where
  rows := [⟨2, 1, 7, 3, "assistant", [], turnTime⟩, ⟨1, 2, 7, 3, "tool", [], turnTime⟩]
  ids := by decide
  seqs := by decide

/-- The result is listed before the call. -/
theorem user_order_fails : ¬FollowsReplay toolRound 7 := by
  intro h
  have hcreated := listSteps_eq_iff.1 h.history
  have hids := hcreated _ (List.mem_cons_self) _ (List.mem_cons_of_mem _ (List.mem_singleton_self _))
    rfl rfl (by decide)
  rcases hids with hlt | ⟨-, hlt⟩
  · exact lt_irrefl _ hlt
  · exact absurd hlt (by decide)

end ChatBackend.Chats
