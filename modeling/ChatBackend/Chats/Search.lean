import ChatBackend.Chats.HiddenSettings
import ChatBackend.Chats.Listing
import ChatBackend.Foundations.Like

/-!
# The search for chats

The query becomes a pattern of `ILIKE`, for the title and for the first text of every user step, with
the settings in front of it and the placeholders in its absence. A query without pattern characters
finds the right chats when it is in no stored text beyond them (`chat_search`); one with a NUL finds
none.
-/

namespace ChatBackend.Chats

open Chat Keyset

/-! ## Matching -/

/-- The special characters of `LIKE`. -/
def likeSpecials : Like.Specials Char where
  many := '%'
  any := '_'
  escape := '\\'
  many_ne_any := by decide
  many_ne_escape := by decide
  any_ne_escape := by decide

/-- The case folding of the database. -/
structure CaseMap where
  fold : Char → Char
  keeps : Like.Keeps likeSpecials fold

variable (cm : CaseMap)

/-- The characters of a text, without their case. -/
def CaseMap.folded (s : String) : List Char := s.toList.map cm.fold

/-- `text ILIKE pattern`. -/
def ilike (text pattern : String) : Bool :=
  Like.run (Like.items likeSpecials (cm.folded pattern)) (cm.folded text)

/-- The text contains the query, in any case. -/
def contains (query text : String) : Bool := cm.folded query <:+: cm.folded text

/-- The text matches the pattern of the query. -/
def hits (query text : String) : Bool := Like.found likeSpecials (cm.folded query) (cm.folded text)

/-! ## Stored chats -/

/-- A message that a user has sent, as the orchestrator gets it. -/
structure SentMessage where
  context : Option Dict
  message : String
  prepared : Option PreparedAttachments
  actionPrompt : Option String

/-- A step of a chat. -/
inductive HistoryStep : Type
  | user (m : SentMessage)
  | assistant (payload : Dict)
  | tool (payload : Dict)

/-- A chat: its row, and its steps in order. -/
structure ChatHistory where
  session : SessionRow
  steps : List (Uuid × Timestamp × HistoryStep)

/-- The chats of all users. -/
structure ChatStore where
  chats : List ChatHistory
  ids : (chats.map (·.session.id)).Nodup

/-- The row of a step; `lower` is `str.lower`. -/
def HistoryStep.row (lower : String → String) (session : SessionRow) (id : Uuid)
    (createdAt : Timestamp) : HistoryStep → StepRow
  | user m => ⟨id, session.id, "user",
      (userStep lower m.context m.message m.prepared m.actionPrompt).payload, createdAt⟩
  | assistant payload => ⟨id, session.id, "assistant", payload, createdAt⟩
  | tool payload => ⟨id, session.id, "tool", payload, createdAt⟩

/-- The rows of the steps of a chat. -/
def ChatHistory.rows (lower : String → String) (c : ChatHistory) : List StepRow :=
  c.steps.map fun s => s.2.2.row lower c.session s.1 s.2.1

/-- The tables. -/
def ChatStore.tables (lower : String → String) (astext : Json → Option String)
    (repr : Json → String) (store : ChatStore) : ChatTables where
  sessions := store.chats.map (·.session)
  steps := store.chats.flatMap (·.rows lower)
  ilike := ilike cm
  astext := astext
  repr := repr

/-- The messages of a chat. -/
def ChatHistory.messages (c : ChatHistory) : List SentMessage :=
  c.steps.filterMap fun s => match s.2.2 with
    | .user m => some m
    | _ => none

/-! ## What should be found -/

/-- The title, or the text of the first message of the user, contains the query. -/
def ChatHistory.wanted (query : String) (c : ChatHistory) : Bool :=
  c.session.title.any (contains cm query) ||
    c.messages.head?.any fun m => contains cm query (ownText m.message)

section Search

variable (lower : String → String) (astext : Json → Option String) (repr : Json → String)

/-- `list_chats` with the query shows exactly the chats of the user that should be found. -/
def Finds (store : ChatStore) (user : Uuid) (query : String) : Prop :=
  ∀ limit, 1 ≤ limit →
    Paginates (listChats (store.tables cm lower astext repr) ⟨user, some query, none⟩ limit) limit
      ((store.chats.filter fun c => c.session.userId = user && c.wanted cm query).map fun c =>
        chatItem (store.tables cm lower astext repr) c.session) ChatListItemView.before

/-- The stored texts of a message: its text, with the settings in front of it, and the placeholders
of the attachments. -/
def SentMessage.texts (m : SentMessage) : List String :=
  let text := composeTurn0Text (renderContextBlock lower m.context) m.message
  (if text = "" then [] else [text]) ++ placeholderTexts m.prepared

/-- The query is not in the later messages, the settings and the placeholders of a chat of the user
that should not be found, and it is empty only if all should be. -/
def OnlyFirst (store : ChatStore) (user : Uuid) (query : String) : Prop :=
  ∀ c ∈ store.chats, c.session.userId = user → c.wanted cm query = false →
    query ≠ "" ∧ ∀ m ∈ c.messages, (m.texts lower).head?.any (contains cm query) = false

/-- A query that PostgreSQL accepts, without pattern characters. -/
def PlainQuery (query : String) : Prop :=
  nulFree query = true ∧ ∀ c ∈ query.toList, Like.Plain likeSpecials c

variable {cm lower astext repr}

/-! ## What is found -/

theorem hits_eq {query : String} (h : PlainQuery query) : hits cm query = contains cm query := by
  have hplain : ∀ c ∈ cm.folded query, Like.Plain likeSpecials c :=
    (cm.keeps.map_plain query.toList).2 h.2
  funext text
  rw [Bool.eq_iff_iff, hits, Like.found_plain hplain, contains, decide_eq_true_eq]

theorem ilike_like (query text : String) :
    ilike cm text ("%" ++ query ++ "%") = hits cm query text := by
  have hfold : cm.folded ("%" ++ query ++ "%") =
      likeSpecials.many :: cm.folded query ++ [likeSpecials.many] := by
    have hmany : cm.fold '%' = likeSpecials.many := (cm.keeps.many _).2 rfl
    simp [CaseMap.folded, hmany]
  rw [ilike, hfold, hits, Like.found]

/-- The text that the search reads of a message. -/
theorem firstText_user (t : ChatTables) (m : SentMessage) :
    firstText t (userStep lower m.context m.message m.prepared m.actionPrompt).payload =
      (m.texts lower).head? := by
  show firstText t (StoredStep.user (m.texts lower) _).payload = _
  cases m.texts lower with
  | nil => rfl
  | cons text texts => simp [firstText, StoredStep.payload, Dict.get]

/-- The chats that are found. -/
theorem found_eq {store : ChatStore} {c : ChatHistory} (hc : c ∈ store.chats) (query : String) :
    c.session.found (store.tables cm lower astext repr) query =
      (c.session.title.any (hits cm query) ||
        c.messages.any fun m => (m.texts lower).head?.any (hits cm query)) := by
  have hlike : (fun text => ilike cm text ("%" ++ query ++ "%")) = hits cm query :=
    funext (ilike_like query)
  have hstep : ∀ (c' : ChatHistory) (s : Uuid × Timestamp × HistoryStep),
      (s.2.2.row lower c'.session s.1 s.2.1).sessionId = c'.session.id := by
    rintro c' ⟨id, createdAt, s⟩
    cases s <;> rfl
  rw [Bool.eq_iff_iff, SessionRow.found]
  show (c.session.title.any (fun text => ilike cm text ("%" ++ query ++ "%")) ||
    (store.chats.flatMap (·.rows lower)).any fun step => step.sessionId = c.session.id &&
      step.role = "user" && (firstText _ step.payload).any
        fun text => ilike cm text ("%" ++ query ++ "%")) = true ↔ _
  rw [hlike, Bool.or_eq_true, Bool.or_eq_true]
  refine or_congr_right ?_
  rw [List.any_eq_true, List.any_eq_true]
  constructor
  · rintro ⟨row, hrow, hmatch⟩
    rw [Bool.and_eq_true, Bool.and_eq_true, decide_eq_true_eq, decide_eq_true_eq] at hmatch
    obtain ⟨⟨hid, hrole⟩, htext⟩ := hmatch
    obtain ⟨c', hc', hrow⟩ := List.mem_flatMap.1 hrow
    obtain ⟨s, hs, rfl⟩ := List.mem_map.1 hrow
    rw [hstep] at hid
    cases List.inj_on_of_nodup_map store.ids hc' hc hid
    obtain ⟨id, createdAt, s⟩ := s
    cases s with
    | user m =>
      refine ⟨m, List.mem_filterMap.2 ⟨_, hs, rfl⟩, ?_⟩
      rwa [← firstText_user]
    | assistant payload => exact absurd (show "assistant" = "user" from hrole) (by decide)
    | tool payload => exact absurd (show "tool" = "user" from hrole) (by decide)
  · rintro ⟨m, hm, htext⟩
    obtain ⟨⟨id, createdAt, s⟩, hs, hsome⟩ := List.mem_filterMap.1 hm
    cases s with
    | user m' =>
      cases hsome
      refine ⟨_, List.mem_flatMap.2 ⟨c, hc, List.mem_map.2 ⟨_, hs, rfl⟩⟩, ?_⟩
      rw [Bool.and_eq_true, Bool.and_eq_true, decide_eq_true_eq, decide_eq_true_eq]
      refine ⟨⟨rfl, rfl⟩, ?_⟩
      rwa [← firstText_user] at htext
    | assistant payload => cases hsome
    | tool payload => cases hsome

/-- Nothing is found with a query that is refused. -/
theorem not_finds {query : String} (h : nulFree query = false) (store : ChatStore) (user : Uuid) :
    ¬ Finds cm lower astext repr store user query := by
  intro hfinds
  obtain ⟨pages, hfollows, -⟩ := hfinds 1 (Nat.le_refl 1)
  obtain ⟨e, he⟩ := listChats_refused (store.tables cm lower astext repr)
    (f := ⟨user, some query, none⟩) (by simp [ChatFilter.refused, h]) 1 none
  cases hfollows with
  | last hpage => rw [he] at hpage; cases hpage
  | more hpage => rw [he] at hpage; cases hpage

/-- The chats that are shown are the right ones when each of the user's is. -/
theorem finds_iff {query : String} (hquery : nulFree query = true) (store : ChatStore) (user : Uuid) :
    Finds cm lower astext repr store user query ↔
      ∀ c ∈ store.chats, c.session.userId = user →
        (query = "" ∨ c.session.found (store.tables cm lower astext repr) query = true ↔
          c.wanted cm query = true) := by
  have hids : (store.chats.map fun c =>
      (chatItem (store.tables cm lower astext repr) c.session).id).Nodup := store.ids
  have hpages : ∀ limit, 1 ≤ limit →
      Paginates (listChats (store.tables cm lower astext repr) ⟨user, some query, none⟩ limit) limit
        ((store.chats.filter fun c =>
          c.session.matches (store.tables cm lower astext repr) ⟨user, some query, none⟩).map
            fun c => chatItem (store.tables cm lower astext repr) c.session)
        ChatListItemView.before := by
    intro limit hlimit
    have h := paginates_chats (store.tables cm lower astext repr) (f := ⟨user, some query, none⟩)
      (by simp [ChatFilter.refused, hquery]) hlimit
      (by rw [ChatStore.tables, List.map_map]; exact store.ids)
    have hrows : (store.tables cm lower astext repr).sessions = store.chats.map (·.session) := rfl
    rw [hrows, List.filter_map, List.map_map] at h
    exact h
  have hmatches : ∀ c : ChatHistory,
      (c.session.matches (store.tables cm lower astext repr) ⟨user, some query, none⟩ =
        (c.session.userId = user && c.wanted cm query : Bool)) ↔
      (c.session.userId = user →
        (query = "" ∨ c.session.found (store.tables cm lower astext repr) query = true ↔
          c.wanted cm query = true)) := by
    intro c
    rw [Bool.eq_iff_iff, SessionRow.matches]
    simp only [Option.all_none, Option.all_some, Bool.and_true, Bool.and_eq_true, Bool.or_eq_true,
      decide_eq_true_eq]
    exact and_congr_right_iff
  rw [Finds]
  constructor
  · intro h c hc
    have hperm := ((hpages 1 (Nat.le_refl 1)).iff_perm).1 (h 1 (Nat.le_refl 1))
    exact (hmatches c).1 ((perm_filter_iff hids).1 hperm c hc)
  · intro h limit hlimit
    refine ((hpages limit hlimit).iff_perm).2 ((perm_filter_iff hids).2 fun c hc => ?_)
    exact (hmatches c).2 (h c hc)

/-- The own text of a message is in its stored text. -/
theorem stored_of_own {query : String} {m : SentMessage} (hquery : query ≠ "")
    (h : contains cm query (ownText m.message) = true) :
    (m.texts lower).head?.any (contains cm query) = true := by
  have hblank : isBlank m.message = false := by
    by_contra hblank
    have hown : ownText m.message = "" := if_pos (by simpa using hblank)
    rw [hown, contains, decide_eq_true_eq] at h
    exact hquery (String.toList_eq_nil_iff.1 (List.map_eq_nil_iff.1 (List.infix_nil.1 h)))
  have hown : ownText m.message = m.message := if_neg (by rw [hblank]; exact nofun)
  obtain ⟨front, hfront⟩ : ∃ front : List Char,
      (composeTurn0Text (renderContextBlock lower m.context) m.message).toList =
        front ++ m.message.toList := by
    cases renderContextBlock lower m.context with
    | none => exact ⟨[], congrArg String.toList hown⟩
    | some block =>
      refine ⟨block.toList ++ ['\n', '\n'], ?_⟩
      rw [composeTurn0Text_some, hblank]
      simp
  have hne : composeTurn0Text (renderContextBlock lower m.context) m.message ≠ "" := by
    intro hempty
    rw [hempty] at hfront
    have hnil : front ++ m.message.toList = [] := hfront.symm
    exact ne_empty_of_not_blank hblank
      (String.toList_eq_nil_iff.1 (List.append_eq_nil_iff.1 hnil).2)
  have hhead : (m.texts lower).head? =
      some (composeTurn0Text (renderContextBlock lower m.context) m.message) := by
    rw [SentMessage.texts, if_neg hne]
    rfl
  rw [hown, contains, decide_eq_true_eq] at h
  rw [hhead, Option.any_some, contains, decide_eq_true_eq, CaseMap.folded, CaseMap.folded, hfront,
    List.map_append]
  exact h.trans (List.suffix_append _ _).isInfix

/-- What should be found is found. -/
theorem found_of_wanted {store : ChatStore} {c : ChatHistory} (hc : c ∈ store.chats) {query : String}
    (hplain : PlainQuery query) (hquery : query ≠ "") (h : c.wanted cm query = true) :
    c.session.found (store.tables cm lower astext repr) query = true := by
  rw [ChatHistory.wanted, Bool.or_eq_true] at h
  rw [found_eq hc, hits_eq hplain, Bool.or_eq_true]
  refine h.imp_right fun hfirst => ?_
  obtain ⟨m, hm, hown⟩ := (Option.any_eq_true _ _).1 hfirst
  exact List.any_eq_true.2 ⟨m, List.mem_of_mem_head? hm, stored_of_own hquery hown⟩

theorem titledTime_valid : (⟨2024, 2, 29, 12, 0, 0, 0⟩ : DateTime).Valid := by decide

/-- A chat with a title and without messages. -/
def titledChat (title : String) : ChatHistory where
  session := ⟨0, 0, none, some title, "chat", none, false,
    ⟨⟨2024, 2, 29, 12, 0, 0, 0⟩, titledTime_valid⟩⟩
  steps := []

def titledStore (title : String) : ChatStore := ⟨[titledChat title], List.nodup_singleton _⟩

/-- The title that a query with pattern characters finds and does not occur in. -/
def sampleTitle (query : String) : String :=
  String.ofList (Like.sample likeSpecials 'x' query.toList)

theorem hits_sampleTitle (query : String) : hits cm query (sampleTitle query) = true := by
  rw [hits, CaseMap.folded, CaseMap.folded, sampleTitle, String.toList_ofList, ← cm.keeps.sample]
  exact Like.found_sample _

theorem not_contains_sampleTitle {query : String}
    (h : ¬ ∀ c ∈ query.toList, Like.Plain likeSpecials c) :
    contains cm query (sampleTitle query) = false := by
  have hx : cm.fold 'x' ≠ likeSpecials.any := mt (cm.keeps.any _).1 (by decide)
  have hplain : ¬ ∀ c ∈ query.toList.map cm.fold, Like.Plain likeSpecials c :=
    mt (cm.keeps.map_plain _).1 h
  rw [contains, decide_eq_false_iff_not, CaseMap.folded, CaseMap.folded, sampleTitle,
    String.toList_ofList, ← cm.keeps.sample]
  exact Like.not_infix_sample hx hplain

variable (cm lower astext repr)

/-- **The search finds the right chats** for a query without pattern characters exactly when it is in
no other stored text of a chat, for no query with pattern characters whatever the chats, and for a
query with a NUL on no chats. -/
theorem chat_search (query : String) :
    (PlainQuery query → ∀ (store : ChatStore) (user : Uuid),
      Finds cm lower astext repr store user query ↔ OnlyFirst cm lower store user query) ∧
    (¬ PlainQuery query → ∃ (store : ChatStore) (user : Uuid),
      OnlyFirst cm lower store user query ∧ ¬ Finds cm lower astext repr store user query) ∧
    (nulFree query = false → ∀ (store : ChatStore) (user : Uuid),
      ¬ Finds cm lower astext repr store user query) := by
  refine ⟨?_, ?_, not_finds⟩
  · intro hplain store user
    rw [finds_iff hplain.1]
    refine forall₂_congr fun c hc => imp_congr_right fun huser => ?_
    cases hwanted : c.wanted cm query with
    | true =>
      refine ⟨fun _ h => (nomatch h), fun _ => ⟨fun _ => rfl, fun _ => ?_⟩⟩
      by_cases hquery : query = ""
      · exact .inl hquery
      · exact .inr (found_of_wanted hc hplain hquery hwanted)
    | false =>
      rw [ChatHistory.wanted, Bool.or_eq_false_iff] at hwanted
      rw [found_eq hc, hits_eq hplain, hwanted.1, Bool.false_or]
      constructor
      · intro h _
        refine ⟨fun hquery => (nomatch h.1 (.inl hquery)), fun m hm => ?_⟩
        by_contra htext
        have hany : c.messages.any (fun m => (m.texts lower).head?.any (contains cm query)) = true :=
          List.any_eq_true.2 ⟨m, hm, by simpa using htext⟩
        exact absurd (h.1 (.inr hany)) nofun
      · intro h
        obtain ⟨hquery, htexts⟩ := h rfl
        refine ⟨fun hfound => ?_, fun h => (nomatch h)⟩
        obtain ⟨m, hm, htext⟩ := List.any_eq_true.1 (hfound.resolve_left hquery)
        rw [htexts m hm] at htext
        exact htext
  · intro hplain
    have hquery : query ≠ "" := by
      rintro rfl
      exact hplain ⟨rfl, fun c hc => absurd hc List.not_mem_nil⟩
    have hmem : titledChat (sampleTitle query) ∈ (titledStore (sampleTitle query)).chats :=
      List.mem_singleton.2 rfl
    refine ⟨titledStore (sampleTitle query), 0, fun c hc _ _ => ⟨hquery, fun m hm => ?_⟩, ?_⟩
    · rw [List.mem_singleton.1 hc] at hm
      cases hm
    · cases hnul : nulFree query with
      | false => exact not_finds hnul _ _
      | true =>
      rw [finds_iff hnul]
      intro h
      have hspecial : ¬ ∀ c ∈ query.toList, Like.Plain likeSpecials c := fun hall => hplain ⟨hnul, hall⟩
      have hfound : (titledChat (sampleTitle query)).session.found
          ((titledStore (sampleTitle query)).tables cm lower astext repr) query = true := by
        rw [found_eq hmem, Bool.or_eq_true]
        exact .inl (hits_sampleTitle query)
      have hwanted := (h _ hmem rfl).1 (.inr hfound)
      have hnot : (titledChat (sampleTitle query)).wanted cm query = false := by
        rw [ChatHistory.wanted, Bool.or_eq_false_iff]
        exact ⟨not_contains_sampleTitle hspecial, rfl⟩
      rw [hnot] at hwanted
      cases hwanted

end Search

/-- A database that folds no case. -/
def sameCase : CaseMap := ⟨id, fun _ => Iff.rfl, fun _ => Iff.rfl, fun _ => Iff.rfl⟩

/-- A chat without a title and with two messages. -/
def twoMessages : ChatHistory where
  session := { (titledChat "").session with title := none }
  steps := [(0, (titledChat "").session.updatedAt, .user ⟨none, "hello", none, none⟩),
    (1, (titledChat "").session.updatedAt, .user ⟨none, "my plan", none, none⟩)]

/-- The chat is found by its second message. -/
theorem chat_search_fails : ¬ ∀ (store : ChatStore) (user : Uuid) (query : String),
    Finds sameCase id (fun _ => none) (fun _ => "") store user query := by
  intro h
  have hstore := h ⟨[twoMessages], List.nodup_singleton _⟩ 0 "plan"
  have hmem : twoMessages ∈ [twoMessages] := List.mem_singleton.2 rfl
  rw [finds_iff rfl] at hstore
  have hfound := @found_eq sameCase id (fun _ => none) (fun _ => "")
    ⟨[twoMessages], List.nodup_singleton _⟩ twoMessages hmem "plan"
  have hmessages : (twoMessages.messages.any fun m =>
      (m.texts id).head?.any (hits sameCase "plan")) = true := by decide
  rw [hmessages, Bool.or_true] at hfound
  exact absurd ((hstore twoMessages hmem rfl).1 (.inr hfound)) (by decide)

end ChatBackend.Chats
