import ChatBackend.Gateway.RateLimit

/-!
# The limits of the endpoints

The functions that the endpoints ask before they serve a request: each makes one or more calls of the
limiter, one counter after another, and lets the request through when Redis is out of reach. The calls of
all requests are interleaved. `requests_limited`: no counter lets more requests through in a window than
its limit, a request is refused only if as many others have used one of its own counters, and different
counters have different keys.
-/

namespace ChatBackend.Gateway

open SlidingWindow

/-! ## Counters -/

/-- What a counter is for. -/
inductive Family
  | user
  | dev
  | ip
  | admin
  | auth
  | cpwebhook
  | other
  deriving DecidableEq

/-- The start of its key. -/
def Family.text : Family → String
  | user => "rl:user:"
  | dev => "rl:dev:"
  | ip => "rl:ip:"
  | admin => "rl:admin:"
  | auth => "rl:auth:"
  | cpwebhook => "rl:cpwebhook:"
  | other => "rl:other:"

/-- A counter. -/
structure Bucket where
  family : Family
  subject : String
  deriving DecidableEq

def Bucket.key (b : Bucket) : String := b.family.text ++ b.subject

structure LimitSettings where
  rateLimitWindowSeconds : ℤ
  rateLimitChatPerUser : ℤ
  rateLimitChatPerDevice : ℤ
  rateLimitChatPerIp : ℤ
  adminRateLimitPerMin : ℤ
  authRateLimitPerIp : ℤ
  cloudpaymentsWebhookRateLimitPerIp : ℤ
  rateLimitOtherPerUser : ℤ

def LimitSettings.limit (settings : LimitSettings) : Family → ℤ
  | .user => settings.rateLimitChatPerUser
  | .dev => settings.rateLimitChatPerDevice
  | .ip => settings.rateLimitChatPerIp
  | .admin => settings.adminRateLimitPerMin
  | .auth => settings.authRateLimitPerIp
  | .cpwebhook => settings.cloudpaymentsWebhookRateLimitPerIp
  | .other => settings.rateLimitOtherPerUser

/-- A request that asks for its limits. -/
inductive LimitedRequest
  /-- `enforce_chat_limits`. -/
  | chat (userId : String) (deviceId ip : Option String)
  /-- `enforce_admin_limits`. -/
  | admin (ip : Option String)
  /-- `enforce_auth_limits`. -/
  | auth (ip : Option String)
  /-- `enforce_cloudpayments_webhook_limits`. -/
  | cloudPaymentsWebhook (ip : Option String)
  /-- `enforce_other_limits`. -/
  | other (userId : String)

/-- A text that is truthy. -/
def truthyText (t : Option String) : Option String := t.filter (· ≠ "")

/-- The counters of a request, in the order in which they are asked. -/
def LimitedRequest.checks : LimitedRequest → List Bucket
  | chat userId deviceId ip => ⟨.user, userId⟩ ::
      (((truthyText deviceId).map (Bucket.mk .dev)).toList ++ ((truthyText ip).map (Bucket.mk .ip)).toList)
  | admin ip => [⟨.admin, (truthyText ip).getD "unknown"⟩]
  | auth ip => [⟨.auth, (truthyText ip).getD "unknown"⟩]
  | cloudPaymentsWebhook ip => [⟨.cpwebhook, (truthyText ip).getD "unknown"⟩]
  | other userId => [⟨.other, userId⟩]

theorem checks_nodup (r : LimitedRequest) : r.checks.Nodup := by
  cases r with
  | chat u d ip => cases hd : truthyText d <;> cases hi : truthyText ip <;>
      simp [LimitedRequest.checks, hd, hi]
  | _ => exact List.nodup_singleton _

/-- **Different counters have different keys.** -/
theorem key_injective : Function.Injective Bucket.key := by
  have hstart : ∀ f g : Family, f.text.toList <+: g.text.toList → f = g := by
    intro f g h
    cases f <;> cases g <;> first | rfl | exact absurd h (by decide)
  rintro ⟨f, s⟩ ⟨g, t⟩ h
  have htext : f.text.toList ++ s.toList = g.text.toList ++ t.toList := by
    rw [← String.toList_append, ← String.toList_append]
    exact congrArg String.toList h
  have hfg : f = g := by
    obtain ⟨r, hr, -⟩ | ⟨r, hr, -⟩ := List.append_eq_append_iff.1 htext
    · exact hstart f g ⟨r, hr.symm⟩
    · exact (hstart g f ⟨r, hr.symm⟩).symm
  subst hfg
  rw [String.toList_injective (List.append_cancel_left htext)]

/-! ## Requests that are interleaved -/

/-- What becomes of a pipeline: it is answered, or there is a `RedisError` after or before it is
executed. -/
inductive Reply
  | answered
  | lost
  | unreachable

/-- A pipeline at a time, with the identifier that is drawn for it. -/
structure Tick where
  now : ℚ
  uuid : String
  reply : Reply
  now_nonneg : 0 ≤ now

/-- A pipeline that was executed. -/
structure Executed (ι : Type) where
  request : ι
  bucket : Bucket
  call : Call
  allowed : Bool

/-- The server, and where the requests are: the counters that are left, the answer, and whether Redis has
failed on the way. -/
structure Limits (ι : Type) where
  redis : Redis
  left : ι → List Bucket
  verdict : ι → Option Bool
  failed : ι → Bool
  /-- The pipelines that were executed, the last one first. -/
  log : List (Executed ι)

def LimitSettings.call (settings : LimitSettings) (b : Bucket) (tick : Tick) : Call :=
  ⟨b.key, settings.limit b.family, settings.rateLimitWindowSeconds, tick.now, tick.uuid, tick.now_nonneg⟩

section Steps

variable {ι : Type} [DecidableEq ι] (timeText : TimeText) (settings : LimitSettings)
  (requests : ι → LimitedRequest)

def Limits.start : Limits ι :=
  ⟨fun _ => none, fun i => (requests i).checks, fun _ => none, fun _ => false, []⟩

/-- The pipeline of a request is executed. -/
def Limits.execute (s : Limits ι) (i : ι) (b : Bucket) (rest : List Bucket) (tick : Tick)
    (verdict : Bool → Option Bool) (failed : Bool) : Limits ι :=
  let c := settings.call b tick
  let (allowed, redis) := allow timeText s.redis c
  { redis := redis
    left := Function.update s.left i rest
    verdict := Function.update s.verdict i (verdict allowed)
    failed := Function.update s.failed i failed
    log := ⟨i, b, c, allowed⟩ :: s.log }

/-- The next step of a request: the loop over its counters, which ends where one is exhausted or where
Redis fails. -/
def Limits.step (s : Limits ι) (i : ι) (tick : Tick) : Limits ι :=
  match s.verdict i, s.left i with
  | some _, _ => s
  | none, [] => { s with verdict := Function.update s.verdict i (some true) }
  | none, b :: rest =>
    match tick.reply with
    | .answered => s.execute timeText settings i b rest tick
        (fun allowed => if allowed then none else some false) false
    | .lost => s.execute timeText settings i b rest tick (fun _ => some true) true
    | .unreachable => { s with
        verdict := Function.update s.verdict i (some true)
        failed := Function.update s.failed i true }

/-- Steps of the requests, the last one first. -/
def Limits.steps : List (ι × Tick) → Limits ι
  | [] => .start requests
  | (i, tick) :: past => (Limits.steps past).step timeText settings i tick

end Steps

/-! ## What holds on the way -/

section Invariant

variable {ι : Type} [DecidableEq ι] {timeText : TimeText} {settings : LimitSettings}
  {requests : ι → LimitedRequest} {s : Limits ι} {past : List (ι × Tick)} {i : ι} {tick : Tick}

/-- The log is what the server knows, and what the requests have behind them. -/
structure Logged (timeText : TimeText) (settings : LimitSettings) (requests : ι → LimitedRequest)
    (past : List (ι × Tick)) (s : Limits ι) : Prop where
  redis : s.redis = (allowAll timeText (s.log.map Executed.call)).2
  answers : (allowAll timeText (s.log.map Executed.call)).1 = s.log.map fun e => (e.call, e.allowed)
  calls : ∀ e ∈ s.log, ∃ tick, e.call = settings.call e.bucket tick
  order : (s.log.map fun e => (e.call.now, e.call.uuid)).Sublist (past.map fun e => (e.2.now, e.2.uuid))
  path : ∀ i, ((s.log.filter (·.request = i)).map Executed.bucket).reverse ++ s.left i =
    (requests i).checks
  running : ∀ i, s.verdict i = none → s.failed i = false ∧ ∀ e ∈ s.log, e.request = i → e.allowed = true
  passed : ∀ i, s.verdict i = some true → s.failed i = false →
    s.left i = [] ∧ ∀ e ∈ s.log, e.request = i → e.allowed = true
  refused : ∀ i, s.verdict i = some false →
    s.failed i = false ∧ ∃ e ∈ s.log, e.request = i ∧ e.allowed = false

theorem Logged.start : Logged timeText settings requests [] (Limits.start requests) :=
  ⟨rfl, rfl, fun _ h => (by cases h), .slnil, fun _ => rfl, fun _ _ => ⟨rfl, fun _ h => (by cases h)⟩,
    fun _ h => (by cases h), fun _ h => (by cases h)⟩

/-- A step that executes nothing. -/
theorem Logged.skip (h : Logged timeText settings requests past s) (e : ι × Tick) :
    Logged timeText settings requests (e :: past) s :=
  ⟨h.redis, h.answers, h.calls, h.order.cons _, h.path, h.running, h.passed, h.refused⟩

section Execute

variable {b : Bucket} {rest : List Bucket} {verdict : Bool → Option Bool} {failed : Bool}

@[simp] theorem execute_redis : (s.execute timeText settings i b rest tick verdict failed).redis =
    (allow timeText s.redis (settings.call b tick)).2 := rfl

@[simp] theorem execute_left : (s.execute timeText settings i b rest tick verdict failed).left =
    Function.update s.left i rest := rfl

@[simp] theorem execute_verdict : (s.execute timeText settings i b rest tick verdict failed).verdict =
    Function.update s.verdict i (verdict (allow timeText s.redis (settings.call b tick)).1) := rfl

@[simp] theorem execute_failed : (s.execute timeText settings i b rest tick verdict failed).failed =
    Function.update s.failed i failed := rfl

@[simp] theorem execute_log : (s.execute timeText settings i b rest tick verdict failed).log =
    ⟨i, b, settings.call b tick, (allow timeText s.redis (settings.call b tick)).1⟩ :: s.log := rfl

end Execute

/-- How a request goes on after a pipeline. -/
def GoesOn (verdict : Bool → Option Bool) (failed : Bool) : Prop :=
  (failed = true ∧ ∀ a, verdict a = some true) ∨
    failed = false ∧ ∀ a, verdict a = if a then none else some false

section GoesOn

variable {verdict : Bool → Option Bool} {failed a : Bool}

/-- The loop goes on only after a counter that has let the request through. -/
theorem GoesOn.running (h : GoesOn verdict failed) (hv : verdict a = none) :
    failed = false ∧ a = true := by
  obtain ⟨-, hgo⟩ | ⟨hfailed, hgo⟩ := h
  · simp [hgo] at hv
  · cases a <;> simp [hgo] at hv
    exact ⟨hfailed, rfl⟩

/-- A pipeline lets a request pass only where Redis fails. -/
theorem GoesOn.passed (h : GoesOn verdict failed) (hv : verdict a = some true) : failed = true := by
  obtain ⟨hfailed, -⟩ | ⟨-, hgo⟩ := h
  · exact hfailed
  · cases a <;> simp [hgo] at hv

theorem GoesOn.refused (h : GoesOn verdict failed) (hv : verdict a = some false) :
    failed = false ∧ a = false := by
  obtain ⟨-, hgo⟩ | ⟨hfailed, hgo⟩ := h
  · simp [hgo] at hv
  · cases a <;> simp [hgo] at hv
    exact ⟨hfailed, rfl⟩

end GoesOn

omit [DecidableEq ι] in
/-- The other requests have what they had in the log. -/
theorem mem_log_of_ne {e e' : Executed ι} {log : List (Executed ι)} {j : ι} (he : e ∈ e' :: log)
    (hj : e.request = j) (hne : e'.request ≠ j) : e ∈ log := by
  obtain rfl | he := List.mem_cons.1 he
  · exact absurd hj hne
  · exact he

/-- A step that executes a pipeline. -/
theorem Logged.execute (h : Logged timeText settings requests past s) {b : Bucket} {rest : List Bucket}
    (hv : s.verdict i = none) (hl : s.left i = b :: rest) {verdict : Bool → Option Bool} {failed : Bool}
    (hon : GoesOn verdict failed) : Logged timeText settings requests ((i, tick) :: past)
      (s.execute timeText settings i b rest tick verdict failed) := by
  have hlast : allowAll timeText ((settings.call b tick) :: s.log.map Executed.call) =
      ((settings.call b tick, (allow timeText s.redis (settings.call b tick)).1) ::
        (allowAll timeText (s.log.map Executed.call)).1,
          (allow timeText s.redis (settings.call b tick)).2) := by
    rw [h.redis]
    rfl
  obtain ⟨-, hallowed⟩ := h.running i hv
  refine ⟨?_, ?_, ?_, ?_, fun j => ?_, fun j hj => ?_, fun j hj hf => ?_, fun j hj => ?_⟩
  · exact (congrArg Prod.snd hlast).symm
  · refine (congrArg Prod.fst hlast).trans ?_
    rw [h.answers]
    rfl
  · rintro e (_ | ⟨_, he⟩)
    · exact ⟨tick, rfl⟩
    · exact h.calls e he
  · exact h.order.cons_cons _
  · have hpath := h.path j
    by_cases hij : i = j
    · subst hij
      rw [hl] at hpath
      simpa using hpath
    · simpa [hij, Function.update_of_ne (Ne.symm hij)] using hpath
  · by_cases hij : i = j
    · subst hij
      rw [execute_verdict, Function.update_self] at hj
      obtain ⟨rfl, hgo⟩ := hon.running hj
      refine ⟨by simp, fun e he hei => ?_⟩
      obtain rfl | he := List.mem_cons.1 he
      · exact hgo
      · exact hallowed e he hei
    · rw [execute_verdict, Function.update_of_ne (Ne.symm hij)] at hj
      rw [execute_failed, Function.update_of_ne (Ne.symm hij)]
      obtain ⟨hfailed, hallowed⟩ := h.running j hj
      exact ⟨hfailed, fun e he hej => hallowed e (mem_log_of_ne he hej hij) hej⟩
  · by_cases hij : i = j
    · subst hij
      rw [execute_verdict, Function.update_self] at hj
      simp [hon.passed hj] at hf
    · rw [execute_verdict, Function.update_of_ne (Ne.symm hij)] at hj
      rw [execute_failed, Function.update_of_ne (Ne.symm hij)] at hf
      rw [execute_left, Function.update_of_ne (Ne.symm hij)]
      obtain ⟨hleft, hallowed⟩ := h.passed j hj hf
      exact ⟨hleft, fun e he hej => hallowed e (mem_log_of_ne he hej hij) hej⟩
  · by_cases hij : i = j
    · subst hij
      rw [execute_verdict, Function.update_self] at hj
      obtain ⟨rfl, hno⟩ := hon.refused hj
      exact ⟨by simp, _, .head _, rfl, hno⟩
    · rw [execute_verdict, Function.update_of_ne (Ne.symm hij)] at hj
      rw [execute_failed, Function.update_of_ne (Ne.symm hij)]
      obtain ⟨hfailed, e, he, hrest⟩ := h.refused j hj
      exact ⟨hfailed, e, .tail _ he, hrest⟩

/-- The answer of a request that has not been answered. -/
theorem Logged.answer (h : Logged timeText settings requests past s) (hv : s.verdict i = none)
    {failed : Bool} (hleft : failed = false → s.left i = []) (e : ι × Tick) :
    Logged timeText settings requests (e :: past) { s with
      verdict := Function.update s.verdict i (some true)
      failed := Function.update s.failed i failed } := by
  obtain ⟨-, hallowed⟩ := h.running i hv
  refine ⟨h.redis, h.answers, h.calls, h.order.cons _, h.path, fun j hj => ?_, fun j hj hf => ?_,
    fun j hj => ?_⟩ <;> by_cases hij : i = j
  · subst hij
    simp at hj
  · simp only [Function.update_of_ne (Ne.symm hij)] at hj ⊢
    exact h.running j hj
  · subst hij
    exact ⟨hleft (by simpa using hf), hallowed⟩
  · simp only [Function.update_of_ne (Ne.symm hij)] at hj hf ⊢
    exact h.passed j hj hf
  · subst hij
    simp at hj
  · simp only [Function.update_of_ne (Ne.symm hij)] at hj ⊢
    exact h.refused j hj

/-- **One step.** -/
theorem Logged.step (h : Logged timeText settings requests past s) :
    Logged timeText settings requests ((i, tick) :: past) (s.step timeText settings i tick) := by
  unfold Limits.step
  split
  · exact h.skip _
  · rename_i hv hl
    have hfailed : s.failed = Function.update s.failed i false := by
      rw [← (h.running i hv).1, Function.update_eq_self]
    rw [hfailed]
    exact h.answer hv (fun _ => hl) _
  · rename_i b rest hv hl
    cases tick.reply with
    | answered => exact h.execute hv hl (.inr ⟨rfl, fun _ => rfl⟩)
    | lost => exact h.execute hv hl (.inl ⟨rfl, fun _ => rfl⟩)
    | unreachable => exact h.answer hv (fun h => by cases h) _

/-- **Any number of steps.** -/
theorem steps_logged (past : List (ι × Tick)) :
    Logged timeText settings requests past (Limits.steps timeText settings requests past) := by
  induction past with
  | nil => exact .start
  | cons e past ih => exact ih.step

/-! ## The laws -/

/-- The calls of a log, at times that do not decrease and without repetition. -/
theorem Logged.calls_ordered (h : Logged timeText settings requests past s)
    (hsorted : past.Pairwise fun e e' => e'.2.now ≤ e.2.now)
    (hdistinct : (past.map fun e => timeText e.2.now ++ ":" ++ e.2.uuid).Nodup) :
    (s.log.map Executed.call).Pairwise (fun c c' => c'.now ≤ c.now) ∧
      ((s.log.map Executed.call).map (Call.member timeText)).Nodup := by
  constructor
  · have hpairs : (past.map fun e => (e.2.now, e.2.uuid)).Pairwise fun p q => q.1 ≤ p.1 :=
      List.pairwise_map.2 hsorted
    exact List.pairwise_map.2 (List.pairwise_map.1 (hpairs.sublist h.order))
  · have hmembers : ((past.map fun e => (e.2.now, e.2.uuid)).map
        fun p => timeText p.1 ++ ":" ++ p.2).Nodup := by
      rw [List.map_map]
      exact hdistinct
    have hlog := hmembers.sublist (h.order.map fun p => timeText p.1 ++ ":" ++ p.2)
    rw [List.map_map] at hlog ⊢
    exact hlog

/-- A call with the key of a counter is one of this counter. -/
theorem Logged.of_key (h : Logged timeText settings requests past s) {b : Bucket} {e : Executed ι}
    (he : e ∈ s.log) (hkey : e.call.key = b.key) : e.bucket = b ∧
      e.call.limit = settings.limit b.family ∧ e.call.windowSeconds = settings.rateLimitWindowSeconds := by
  obtain ⟨tick, hcall⟩ := h.calls e he
  rw [hcall] at hkey
  have hb := key_injective hkey
  rw [hcall, ← hb]
  exact ⟨rfl, rfl, rfl⟩

theorem Logged.key_eq (h : Logged timeText settings requests past s) {e : Executed ι} (he : e ∈ s.log) :
    e.call.key = e.bucket.key := by
  obtain ⟨tick, hcall⟩ := h.calls e he
  rw [hcall]
  rfl

theorem Logged.keys (h : Logged timeText settings requests past s) (b : Bucket) :
    ∀ c ∈ s.log.map Executed.call, c.key = b.key →
      c.limit = settings.limit b.family ∧ c.windowSeconds = settings.rateLimitWindowSeconds := by
  intro c hc hkey
  obtain ⟨e, he, rfl⟩ := List.mem_map.1 hc
  exact (h.of_key he hkey).2

/-- Different requests of a window that a counter has let through are no more than its limit. -/
theorem Logged.budget (h : Logged timeText settings requests past s)
    (hsorted : past.Pairwise fun e e' => e'.2.now ≤ e.2.now)
    (hdistinct : (past.map fun e => timeText e.2.now ++ ":" ++ e.2.uuid).Nodup) {b : Bucket} {a : ℚ}
    {is : List ι} (hnodup : is.Nodup)
    (his : ∀ i ∈ is, ∃ e ∈ s.log, e.request = i ∧ e.bucket = b ∧ e.allowed = true ∧
      a ≤ e.call.now ∧ e.call.now < a + settings.rateLimitWindowSeconds) :
    (is.length : ℤ) ≤ max (settings.limit b.family) 0 := by
  obtain ⟨hcalls, hmembers⟩ := h.calls_ordered hsorted hdistinct
  have hadmitted := (allowAll_tracks hcalls hmembers (h.keys b)).1
  have hbound : (((allowedOf b.key (allowAll timeText (s.log.map Executed.call)).1).countP
      fun c => decide (a ≤ c.now ∧ c.now < a + settings.rateLimitWindowSeconds) : ℕ) : ℤ) ≤
        max (settings.limit b.family) 0 := by
    rw [hadmitted]
    refine countP_admitted_le Call.now _ _ (fun c c' hc hc' => ?_) _
    have hc := of_decide_eq_true hc
    have hc' := of_decide_eq_true hc'
    linarith
  have hcount : (allowedOf b.key (allowAll timeText (s.log.map Executed.call)).1).countP
      (fun c => decide (a ≤ c.now ∧ c.now < a + settings.rateLimitWindowSeconds)) =
        (s.log.filter fun e => decide (a ≤ e.call.now ∧ e.call.now < a + settings.rateLimitWindowSeconds) &&
          (e.call.key == b.key && e.allowed)).length := by
    rw [h.answers, allowedOf, List.filter_map, List.map_map, List.countP_map, List.countP_filter,
      List.countP_eq_length_filter]
    rfl
  have hsub : is ⊆ (s.log.filter fun e =>
      decide (a ≤ e.call.now ∧ e.call.now < a + settings.rateLimitWindowSeconds) &&
        (e.call.key == b.key && e.allowed)).map Executed.request := by
    intro i hi
    obtain ⟨e, he, rfl, rfl, hallowed, htime⟩ := his i hi
    refine List.mem_map_of_mem (List.mem_filter.2 ⟨he, ?_⟩)
    simp [htime, hallowed, h.key_eq he]
  have hlen := (List.subperm_of_subset hnodup hsub).length_le
  rw [List.length_map, ← hcount] at hlen
  exact (Int.ofNat_le.2 hlen).trans hbound

/-- A request asks a counter once. -/
theorem Logged.once (h : Logged timeText settings requests past s) :
    s.log.Pairwise fun e e' => e.bucket = e'.bucket → e.request ≠ e'.request := by
  have hnodup : ∀ i, ((s.log.filter (·.request = i)).map Executed.bucket).Nodup := by
    intro i
    have hchecks := checks_nodup (requests i)
    rw [← h.path i] at hchecks
    exact List.nodup_reverse.1 hchecks.of_append_left
  generalize s.log = log at hnodup
  induction log with
  | nil => exact .nil
  | cons e log ih =>
    refine .cons (fun e' he' hb hi => ?_) (ih fun i => ?_)
    · have hown := hnodup e.request
      rw [List.filter_cons_of_pos (by simp), List.map_cons, List.nodup_cons] at hown
      refine hown.1 (hb ▸ List.mem_map_of_mem (List.mem_filter.2 ⟨he', ?_⟩))
      exact decide_eq_true hi.symm
    · exact (hnodup i).sublist (((List.sublist_cons_self e log).filter _).map _)

variable (timeText) in
/-- The answers of the earlier calls are among those of a run. -/
theorem allowAll_append (later calls : List Call) : ∃ answers : List (Call × Bool),
    answers.length = later.length ∧
      (allowAll timeText (later ++ calls)).1 = answers ++ (allowAll timeText calls).1 := by
  induction later with
  | nil => exact ⟨[], rfl, rfl⟩
  | cons c later ih =>
    obtain ⟨answers, hlen, heq⟩ := ih
    refine ⟨(c, (allow timeText (allowAll timeText (later ++ calls)).2 c).1) :: answers, ?_, ?_⟩
    · rw [List.length_cons, List.length_cons, hlen]
    · rw [List.cons_append, List.cons_append, ← heq]
      rfl

/-- Each pipeline was answered from what the server knew of those before it. -/
theorem Logged.allowed_eq (h : Logged timeText settings requests past s) {e : Executed ι}
    {later earlier : List (Executed ι)} (hlog : s.log = later ++ e :: earlier) :
    (allow timeText (allowAll timeText (earlier.map Executed.call)).2 e.call).1 = e.allowed := by
  obtain ⟨answers, hlen, hall⟩ := allowAll_append timeText (later.map Executed.call)
    ((e :: earlier).map Executed.call)
  have hanswers := h.answers
  rw [hlog, List.map_append, List.map_append, hall] at hanswers
  have hlast := (List.append_inj hanswers (by simpa using hlen)).2
  exact congrArg Prod.snd (List.cons.inj hlast).1

/-- A pipeline that was refused: other requests have used its counter up. -/
theorem Logged.exhausted (h : Logged timeText settings requests past s)
    (hsorted : past.Pairwise fun e e' => e'.2.now ≤ e.2.now)
    (hdistinct : (past.map fun e => timeText e.2.now ++ ":" ++ e.2.uuid).Nodup) {e : Executed ι}
    (he : e ∈ s.log) (hno : e.allowed = false) : ∃ js : List ι, js.Nodup ∧ e.request ∉ js ∧
      settings.limit e.bucket.family ≤ js.length ∧ ∀ j ∈ js, ∃ e' ∈ s.log, e'.request = j ∧
        e'.bucket = e.bucket ∧ e.call.now - settings.rateLimitWindowSeconds < e'.call.now ∧
        e'.call.now ≤ e.call.now := by
  obtain ⟨later, earlier, hlog⟩ := List.append_of_mem he
  have hmem : ∀ e' ∈ earlier, e' ∈ s.log := fun e' he' =>
    hlog ▸ List.mem_append_right _ (.tail _ he')
  obtain ⟨hcalls, hmembers⟩ := h.calls_ordered hsorted hdistinct
  have hsuffix : ((e :: earlier).map Executed.call).Sublist (s.log.map Executed.call) := by
    rw [hlog]
    exact (List.sublist_append_right later _).map _
  have hcalls := hcalls.sublist hsuffix
  have hmembers := hmembers.sublist (hsuffix.map _)
  obtain ⟨-, hlimit, hwindow⟩ := h.of_key he (h.key_eq he)
  have hanswer := (h.allowed_eq hlog).trans hno
  obtain ⟨-, htracks⟩ := allowAll_tracks hcalls.of_cons (List.nodup_cons.1 hmembers).2
    (fun c hc hkey => by
      obtain ⟨e', he', rfl⟩ := List.mem_map.1 hc
      obtain ⟨-, hlimit', hwindow'⟩ := h.of_key (hmem e' he') (hkey.trans (h.key_eq he))
      exact ⟨hlimit'.trans hlimit.symm, hwindow'.trans hwindow.symm⟩)
  -- the answer is that of the window at the call
  rw [(htracks.next hcalls hmembers).1] at hanswer
  have hfull := of_decide_eq_false hanswer
  have honce := h.once
  rw [hlog] at honce
  obtain ⟨-, honce, -⟩ := List.pairwise_append.1 honce
  obtain ⟨hfirst, honce⟩ := List.pairwise_cons.1 honce
  have hbucket : ∀ e' ∈ earlier, e'.call.key = e.call.key → e'.bucket = e.bucket := fun e' he' hkey =>
    (h.of_key (hmem e' he') (hkey.trans (h.key_eq he))).1
  refine ⟨(earlier.filter fun e' => decide (e.call.now - e.call.windowSeconds < e'.call.now) &&
    (e'.call.key == e.call.key)).map Executed.request, ?_, ?_, ?_, ?_⟩
  · refine List.pairwise_map.2 ((honce.sublist List.filter_sublist).imp_of_mem ?_)
    intro e₁ e₂ h₁ h₂ hne
    simp only [List.mem_filter, Bool.and_eq_true, beq_iff_eq] at h₁ h₂
    exact hne ((hbucket e₁ h₁.1 h₁.2.2).trans (hbucket e₂ h₂.1 h₂.2.2).symm)
  · intro hmem'
    obtain ⟨e', he', hrequest⟩ := List.mem_map.1 hmem'
    simp only [List.mem_filter, Bool.and_eq_true, beq_iff_eq] at he'
    exact hfirst e' he'.1 (hbucket e' he'.1 he'.2.2).symm hrequest.symm
  · have hlen : (recent Call.now (e.call.windowSeconds : ℚ) e.call.now
        (ofKey e.call.key (earlier.map Executed.call))).length = (earlier.filter fun e' =>
          decide (e.call.now - e.call.windowSeconds < e'.call.now) &&
            (e'.call.key == e.call.key)).length := by
      rw [recent, ofKey, List.filter_filter, List.filter_map, List.length_map]
      rfl
    rw [Admits, hlen] at hfull
    rw [List.length_map, ← hlimit]
    omega
  · intro j hj
    obtain ⟨e', he', rfl⟩ := List.mem_map.1 hj
    simp only [List.mem_filter, Bool.and_eq_true, beq_iff_eq, decide_eq_true_eq] at he'
    rw [← hwindow]
    refine ⟨e', hmem e' he'.1, rfl, hbucket e' he'.1 he'.2.2, he'.2.1, ?_⟩
    exact (List.pairwise_cons.1 hcalls).1 _ (List.mem_map_of_mem he'.1)

/-- A request has asked a counter at a time. -/
def Limits.Asked (s : Limits ι) (i : ι) (b : Bucket) (t : ℚ) : Prop :=
  ∃ e ∈ s.log, e.request = i ∧ e.bucket = b ∧ e.call.now = t

/-- The counters that a request asks are its own. -/
theorem Logged.mem_checks (h : Logged timeText settings requests past s) {e : Executed ι}
    (he : e ∈ s.log) : e.bucket ∈ (requests e.request).checks := by
  rw [← h.path e.request]
  refine List.mem_append_left _ (List.mem_reverse.2 (List.mem_map_of_mem (List.mem_filter.2 ⟨he, ?_⟩)))
  exact decide_eq_true rfl

/-- **The limits of the endpoints.** For requests of any kinds whose calls of the limiter are interleaved
in any way, at times that do not decrease, and with Redis failing at any call: of the requests that have
been let through without a failure of Redis, each has asked all of its counters, and no counter has been
asked by more of them within a window than its limit; a request is refused only if one of its own
counters was asked within the window before by as many other requests as the limit, which all share this
counter with it; and no two counters have one key. -/
theorem requests_limited (hs : Limits.steps timeText settings requests past = s)
    (hsorted : past.Pairwise fun e e' => e'.2.now ≤ e.2.now)
    (hdistinct : (past.map fun e => timeText e.2.now ++ ":" ++ e.2.uuid).Nodup) :
    (∀ i, s.verdict i = some true → s.failed i = false →
      ∀ b ∈ (requests i).checks, ∃ t, s.Asked i b t) ∧
    (∀ b a (is : List ι), is.Nodup → (∀ i ∈ is, s.verdict i = some true ∧ s.failed i = false ∧
        ∃ t, s.Asked i b t ∧ a ≤ t ∧ t < a + settings.rateLimitWindowSeconds) →
      (is.length : ℤ) ≤ max (settings.limit b.family) 0) ∧
    (∀ i, s.verdict i = some false → ∃ b ∈ (requests i).checks, ∃ t, s.Asked i b t ∧
      ∃ js : List ι, js.Nodup ∧ i ∉ js ∧ settings.limit b.family ≤ js.length ∧
        ∀ j ∈ js, b ∈ (requests j).checks ∧ ∃ t', s.Asked j b t' ∧
          t - settings.rateLimitWindowSeconds < t' ∧ t' ≤ t) ∧
    ∀ b b' : Bucket, b.key = b'.key → b = b' := by
  have h : Logged timeText settings requests past s := hs ▸ steps_logged past
  refine ⟨fun i hi hf b hb => ?_, fun b a is hnodup his => ?_, fun i hi => ?_,
    fun b b' hkey => key_injective hkey⟩
  · rw [← h.path i, (h.passed i hi hf).1, List.append_nil, List.mem_reverse] at hb
    obtain ⟨e, he, rfl⟩ := List.mem_map.1 hb
    obtain ⟨he, hei⟩ := List.mem_filter.1 he
    exact ⟨_, e, he, of_decide_eq_true hei, rfl, rfl⟩
  · have htimes : ∀ i ∈ is, ∃ e ∈ s.log, e.request = i ∧ e.bucket = b ∧ e.allowed = true ∧
        a ≤ e.call.now ∧ e.call.now < a + settings.rateLimitWindowSeconds := by
      intro i hi
      obtain ⟨hv, hf, t, ⟨e, he, hei, heb, rfl⟩, htime⟩ := his i hi
      exact ⟨e, he, hei, heb, (h.passed i hv hf).2 e he hei, htime⟩
    exact h.budget hsorted hdistinct hnodup htimes
  · obtain ⟨-, e, he, rfl, hno⟩ := h.refused i hi
    obtain ⟨js, hnodup, hi, hlimit, hjs⟩ := h.exhausted hsorted hdistinct he hno
    refine ⟨e.bucket, h.mem_checks he, _, ⟨e, he, rfl, rfl, rfl⟩, js, hnodup, hi, hlimit, fun j hj => ?_⟩
    obtain ⟨e', he', rfl, hbucket, htime⟩ := hjs j hj
    exact ⟨hbucket ▸ h.mem_checks he', _, ⟨e', he', rfl, hbucket, rfl⟩, htime⟩

end Invariant

/-! ## Two requests of a user -/

/-- One request in a window. -/
def oneEach : LimitSettings := ⟨60, 1, 1, 1, 1, 1, 1, 1⟩

def sameUser : ℕ → LimitedRequest := fun _ => .other "u"

def answeredAt (now : ℕ) (uuid : String) : Tick := ⟨now, uuid, .answered, Nat.cast_nonneg now⟩

/-- The first request is let through, and the second one refused. -/
def twoSteps : List (ℕ × Tick) :=
  [(1, answeredAt 20 "c"), (0, answeredAt 15 "b"), (0, answeredAt 10 "a")]

theorem requests_limited_twoSteps :
    (Limits.steps (fun _ => "t") oneEach sameUser twoSteps).verdict 0 = some true ∧
      ∃ js : List ℕ, 1 ∉ js ∧ 1 ≤ js.length := by
  have hfirst : (Limits.steps (fun _ => "t") oneEach sameUser twoSteps).verdict 0 = some true := by
    decide +kernel
  have hsecond : (Limits.steps (fun _ => "t") oneEach sameUser twoSteps).verdict 1 = some false := by
    decide +kernel
  have hsorted : twoSteps.Pairwise fun e e' => e'.2.now ≤ e.2.now := by
    simp [twoSteps, answeredAt]
    norm_num
  have hdistinct : (twoSteps.map fun e => "t" ++ ":" ++ e.2.uuid).Nodup := by decide +kernel
  have hsteps : Limits.steps (fun _ => "t") oneEach sameUser twoSteps =
      Limits.steps (fun _ => "t") oneEach sameUser twoSteps := rfl
  obtain ⟨-, -, hrefused, -⟩ := requests_limited hsteps hsorted hdistinct
  obtain ⟨b, -, t, -, js, -, hi, hlimit, -⟩ := hrefused 1 hsecond
  have hone : oneEach.limit b.family = 1 := by cases b.family <;> rfl
  rw [hone] at hlimit
  exact ⟨hfirst, js, hi, by exact_mod_cast hlimit⟩

end ChatBackend.Gateway
