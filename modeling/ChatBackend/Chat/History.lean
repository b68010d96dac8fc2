import ChatBackend.Chat.Requests

/-!
# Histories

A history is a sequence of requests, served one after the other: each runs to its end, or is stopped
at any point by the death of its process. Between two requests other services may write to the
wallets, the subscriptions and the keys, and sessions pass their TTL. Every state that is ever
committed is reached by a history.

* `History` lists what has been served; `Reached` forgets the list.
* `History.induction` is the rule for invariants: they have to be kept by what a request commits.
-/

namespace ChatBackend.Chat

open Prog Wallet Policy

/-! ## One request -/

/-- A process about to serve a request. -/
abbrev idle (g : ℕ) (d : ChatDb) : ChatWorld := ⟨d, d, g, ⟨[], [], []⟩⟩

section Request

variable {llm : LLMAnswer → Prop} {cfg : Config} {g : ℕ} {d : ChatDb} {request : ChatRequest}
variable {w : ChatWorld}

theorem answers_of_runs {out : ChatRunOut} (hf : d.Fresh g)
    (hr : Runs (chatStore llm).step (request.prog cfg) (idle g d) (.ok out) w) :
    w.db = w.work ∧ Answers llm cfg g d request out w.gen w.db := by
  obtain ⟨hwork, hq⟩ := hr.of_wp (request_wp hf)
  refine ⟨hwork, ?_⟩
  rw [hwork]
  exact hq

/-- A call to the provider is made with no transaction open. -/
theorem calls_of_reaches {req : LLMRequest} (hf : d.Fresh g)
    (hr : Reaches (chatStore llm).step (request.prog cfg) (idle g d)
      (.stmt (.createMessage req)) w) :
    w.db = w.work ∧ Calls llm cfg g d request req w.gen w.db w.mem := by
  obtain ⟨hwork, hc⟩ := hr.of_wp (request_wp hf)
  refine ⟨hwork, ?_⟩
  rw [hwork]
  exact hc

/-- The database changes at commits only. -/
theorem committed_of_reaches {p : ChatProg ChatRunOut} {w₀ : ChatWorld} {e : TxAct ChatStmt}
    {call : LLMRequest → ChatWorld → Prop} {Q : Except AppError ChatRunOut → ChatWorld → Prop}
    {I : ℕ → ChatDb → Prop} (hr : Reaches (chatStore llm).step p w₀ e w)
    (hp : p.wp (chatStore llm).step (watch (fun w => I w.gen w.work) call) Q w₀)
    (h₀ : ∃ g ≤ w₀.gen, I g w₀.db) : ∃ g ≤ w.gen, I g w.db := by
  induction hr with
  | here => exact h₀
  | @act e _ k s s₁ s' r hT hk ih =>
    refine ih (hp.2 _ _ hT) ?_
    obtain ⟨g, hg, hI⟩ := h₀
    cases e with
    | stmt st =>
      obtain ⟨ops, gen, mem, hx, rfl⟩ := hT
      exact ⟨g, hg.trans ((chatStore llm).gen_le hx), hI⟩
    | commit =>
      obtain rfl := hT
      exact ⟨_, le_rfl, hp.1⟩
    | rollback =>
      obtain rfl := hT
      exact ⟨g, hg, hI⟩

/-- The counter only grows. -/
theorem gen_le_of_reaches {p : ChatProg ChatRunOut} {w₀ : ChatWorld} {e : TxAct ChatStmt}
    (hr : Reaches (chatStore llm).step p w₀ e w) : w₀.gen ≤ w.gen := by
  induction hr with
  | here => exact le_rfl
  | @act e _ k s s₁ s' r hT hk ih =>
    refine le_trans ?_ ih
    cases e with
    | stmt st =>
      obtain ⟨ops, gen, mem, hx, rfl⟩ := hT
      exact (chatStore llm).gen_le hx
    | commit =>
      obtain rfl := hT
      exact le_rfl
    | rollback =>
      obtain rfl := hT
      exact le_rfl

/-- A request that is stopped has committed what it had visited. -/
theorem leaves_of_reaches {e : TxAct ChatStmt} (hf : d.Fresh g)
    (hr : Reaches (chatStore llm).step (request.prog cfg) (idle g d) e w) :
    Leaves llm cfg g d request w.gen w.db := by
  have hp : (request.prog cfg).wp (chatStore llm).step
      (watch (fun w => w.work = d ∨ Visits llm cfg g d request w.gen w.work)
        fun _ _ => True) (fun _ _ => True) (idle g d) := by
    refine (wp_iff _ _).2 ⟨fun _ _ _ => trivial, fun e s hs => ?_⟩
    have hwatch : watchRequest llm cfg g d request e s := hs.of_wp (request_wp hf)
    cases e with
    | stmt st => cases st <;> trivial
    | commit => exact .inr hwatch
    | rollback => trivial
  obtain ⟨g₁, hg₁, hI⟩ := committed_of_reaches (I := fun g' d' => d' = d ∨
    Visits llm cfg g d request g' d') hr hp ⟨g, le_rfl, .inl rfl⟩
  refine ⟨gen_le_of_reaches hr, ?_⟩
  rcases hI with hI | hI
  · exact .inl hI
  · exact .inr ⟨g₁, hg₁, hI⟩

theorem leaves_of_runs {o : Except AppError ChatRunOut} (hf : d.Fresh g)
    (hr : Runs (chatStore llm).step (request.prog cfg) (idle g d) o w) :
    Leaves llm cfg g d request w.gen w.db := by
  cases o with
  | ok out =>
    obtain ⟨-, ha⟩ := answers_of_runs hf hr
    exact ⟨(ha.fresh hf).1, .inr ⟨_, le_rfl, .answered ha⟩⟩
  | error e => exact (hr.of_wp (request_wp hf)).2

end Request

/-! ## Histories -/

/-- The empty database. -/
def ChatDb.empty : ChatDb :=
  ⟨[], [], [], [], ⟨fun _ => none, [], []⟩, fun _ => false, fun _ => .none, fun _ => none, [], []⟩

/-- The tables after the work of other services. -/
abbrev ChatDb.serviced (d : ChatDb) (ops : List WalletOp) (subscriptions : ℕ → SubscriptionStatus)
    (keys : ℕ → Option StoredKey) (expired : List ℕ) : ChatDb :=
  { d.pay ops with subscriptions := subscriptions, keys := keys, expired := expired }

/-- A request that has been served: the committed state before it, what it answered (nothing, when
it raised or was stopped), and the committed state after it. -/
structure Served where
  gen : ℕ
  db : ChatDb
  request : ChatRequest
  out : Option ChatRunOut
  gen' : ℕ
  db' : ChatDb

/-- The histories whose requests are `ok` in the state they begin in, with the committed state that
they reach. -/
inductive History (llm : LLMAnswer → Prop) (cfg : Config) (ok : ℕ → ChatDb → ChatRequest → Prop) :
    List Served → ℕ → ChatDb → Prop
  | nil : History llm cfg ok [] 0 ChatDb.empty
  | serve {hs : List Served} {g : ℕ} {d : ChatDb} {request : ChatRequest}
      {o : Except AppError ChatRunOut} {w : ChatWorld} (h : History llm cfg ok hs g d)
      (hok : ok g d request)
      (hr : Runs (chatStore llm).step (request.prog cfg) (idle g d) o w) :
      History llm cfg ok (hs ++ [⟨g, d, request, o.toOption, w.gen, w.db⟩]) w.gen w.db
  | stop {hs : List Served} {g : ℕ} {d : ChatDb} {request : ChatRequest} {e : TxAct ChatStmt}
      {w : ChatWorld} (h : History llm cfg ok hs g d) (hok : ok g d request)
      (hr : Reaches (chatStore llm).step (request.prog cfg) (idle g d) e w) :
      History llm cfg ok (hs ++ [⟨g, d, request, none, w.gen, w.db⟩]) w.gen w.db
  | others {hs : List Served} {g : ℕ} {d : ChatDb} {ops : List WalletOp}
      {subscriptions : ℕ → SubscriptionStatus} {keys : ℕ → Option StoredKey} {expired : List ℕ}
      (h : History llm cfg ok hs g d)
      (hk : ∀ r ∈ rows ops, ∀ id, r.idempotencyKey ≠ .uuid id) :
      History llm cfg ok hs g (d.serviced ops subscriptions keys expired)

/-- The committed states. -/
def Reached (llm : LLMAnswer → Prop) (cfg : Config) (ok : ℕ → ChatDb → ChatRequest → Prop)
    (g : ℕ) (d : ChatDb) : Prop := ∃ hs, History llm cfg ok hs g d

section History

variable {llm : LLMAnswer → Prop} {cfg : Config} {ok : ℕ → ChatDb → ChatRequest → Prop}
variable {g : ℕ} {d : ChatDb}

theorem ChatDb.empty_fresh : ChatDb.empty.Fresh 0 :=
  ⟨nofun, nofun, nofun, nofun, nofun, .nil, .nil⟩

theorem Leaves.fresh {request : ChatRequest} {g' : ℕ} {d' : ChatDb}
    (h : Leaves llm cfg g d request g' d') (hf : d.Fresh g) : d'.Fresh g' := by
  obtain ⟨hle, rfl | ⟨g₁, hg₁, hv⟩⟩ := h
  · exact hf.mono hle
  · exact (hv.fresh hf).mono hg₁

/-- A served or stopped request leaves a state that it has visited, or the one it found. -/
theorem History.cases {motive : List Served → ℕ → ChatDb → Prop} {hs : List Served}
    (h : History llm cfg ok hs g d)
    (nil : motive [] 0 ChatDb.empty)
    (request : ∀ {hs g d request out g' d'}, History llm cfg ok hs g d → d.Fresh g →
      motive hs g d → ok g d request → Leaves llm cfg g d request g' d' →
      (∀ o, out = some o → Answers llm cfg g d request o g' d') →
      motive (hs ++ [⟨g, d, request, out, g', d'⟩]) g' d')
    (others : ∀ {hs g d ops subscriptions keys expired}, History llm cfg ok hs g d → d.Fresh g →
      motive hs g d → (∀ r ∈ rows ops, ∀ id, r.idempotencyKey ≠ .uuid id) →
      motive hs g (d.serviced ops subscriptions keys expired)) :
    d.Fresh g ∧ motive hs g d := by
  induction h with
  | nil => exact ⟨ChatDb.empty_fresh, nil⟩
  | @serve hs g d req o w h hok hr ih =>
    have hl := leaves_of_runs ih.1 hr
    refine ⟨hl.fresh ih.1, request h ih.1 ih.2 hok hl ?_⟩
    intro out hout
    cases o with
    | error e => cases hout
    | ok a =>
      obtain rfl : a = out := by simpa [Except.toOption] using hout
      exact (answers_of_runs ih.1 hr).2
  | @stop hs g d req e w h hok hr ih =>
    have hl := leaves_of_reaches ih.1 hr
    exact ⟨hl.fresh ih.1, request h ih.1 ih.2 hok hl nofun⟩
  | others h hk ih =>
    have hf := ih.1.pay fun r hr id hid => absurd hid (hk r hr id)
    exact ⟨⟨hf.sessions, hf.steps, hf.toolCalls, hf.images, hf.keys, hf.stepsSorted, hf.callsSorted⟩,
      others h ih.1 ih.2 hk⟩

theorem Reached.fresh (h : Reached llm cfg ok g d) : d.Fresh g := by
  obtain ⟨hs, h⟩ := h
  exact (h.cases (motive := fun _ _ _ => True) trivial (fun _ _ _ _ _ _ => trivial)
    fun _ _ _ _ => trivial).1

/-- **The rule for invariants** of the committed states: they are kept by every state that a
request commits, and by the other services. -/
theorem Reached.induction {I : ℕ → ChatDb → Prop} (h : Reached llm cfg ok g d)
    (empty : I 0 ChatDb.empty) (mono : ∀ {g g' d}, g ≤ g' → I g d → I g' d)
    (visits : ∀ {g d request g' d'}, Reached llm cfg ok g d → d.Fresh g → I g d →
      ok g d request → Visits llm cfg g d request g' d' → I g' d')
    (others : ∀ {g d ops subscriptions keys expired}, I g d →
      (∀ r ∈ rows ops, ∀ id, r.idempotencyKey ≠ .uuid id) →
      I g (d.serviced ops subscriptions keys expired)) : I g d := by
  obtain ⟨hs, h⟩ := h
  refine (h.cases (motive := fun _ g d => I g d) empty (fun h hf hI hok hl _ => ?_)
    fun _ _ hI hk => others hI hk).2
  obtain ⟨hle, rfl | ⟨g₁, hg₁, hv⟩⟩ := hl
  · exact mono hle hI
  · exact mono hg₁ (visits ⟨_, h⟩ hf hI hok hv)

end History

end ChatBackend.Chat
