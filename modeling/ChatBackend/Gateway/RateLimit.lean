import ChatBackend.Foundations.SlidingWindow
import Mathlib

/-!
# The rate limiter

`allow` counts the calls of a key in a sorted set of Redis: it removes the members that have left
the window, adds a member for the call, whether it will be allowed or not, and sets the expiry of
the key. `Tracks` says what the sorted set knows of the calls so far; with `Tracks.next`, for one
call, `rate_limit` shows that the answers are those of a sliding window.
-/

namespace ChatBackend.Gateway

open SlidingWindow

/-! ## Sorted sets -/

/-- A sorted set: the members, without repetition, with their scores. Their order is left out, as
no command here returns it. -/
structure SortedSet where
  entries : List (String × ℚ)
  nodup : (entries.map Prod.fst).Nodup

namespace SortedSet

def card (s : SortedSet) : ℕ := s.entries.length

/-- The members with a score between `min` and `max`, both included, are removed. -/
def removeRangeByScore (s : SortedSet) (min max : ℚ) : SortedSet where
  entries := s.entries.filter fun e => !(decide (min ≤ e.2) && decide (e.2 ≤ max))
  nodup := (List.filter_sublist.map Prod.fst).nodup s.nodup

/-- A member that is there gets the new score. -/
def add (s : SortedSet) (member : String) (score : ℚ) : SortedSet where
  entries := (member, score) :: s.entries.filter fun e => !(e.1 == member)
  nodup := by
    refine List.nodup_cons.2 ⟨fun h => ?_, (List.filter_sublist.map Prod.fst).nodup s.nodup⟩
    obtain ⟨e, he, hm⟩ := List.mem_map.1 h
    simp [hm] at he

/-- The set of one member. -/
def singleton (member : String) (score : ℚ) : SortedSet := ⟨[(member, score)], by simp⟩

end SortedSet

/-! ## Redis -/

/-- The value of a key. -/
structure Value where
  set : SortedSet
  /-- The time after which the key is gone. -/
  expiresAt : Option ℚ

/-- The keys of the server. -/
abbrev Redis := String → Option Value

namespace Redis

/-- The value of a key that has not expired. -/
def live (redis : Redis) (now : ℚ) (key : String) : Option Value :=
  (redis key).filter fun v => v.expiresAt.all fun e => decide (now ≤ e)

def set (redis : Redis) (key : String) (v : Option Value) : Redis := Function.update redis key v

/-- The commands of the limiter. -/
inductive Command
  | zremrangebyscore (key : String) (min max : ℚ)
  | zadd (key : String) (member : String) (score : ℚ)
  | zcard (key : String)
  | expire (key : String) (seconds : ℤ)

/-- A command at the time `now`, with its reply. A set without members is deleted with its key, and
so is a key whose time to live is not positive. -/
def exec (redis : Redis) (now : ℚ) : Command → ℤ × Redis
  | .zremrangebyscore key min max =>
    match redis.live now key with
    | none => (0, redis.set key none)
    | some v =>
      let kept := v.set.removeRangeByScore min max
      (v.set.card - kept.card,
        redis.set key (if kept.entries.isEmpty then none else some ⟨kept, v.expiresAt⟩))
  | .zadd key member score =>
    match redis.live now key with
    | none => (1, redis.set key (some ⟨.singleton member score, none⟩))
    | some v =>
      (if v.set.entries.any (fun e => e.1 == member) then 0 else 1,
        redis.set key (some ⟨v.set.add member score, v.expiresAt⟩))
  | .zcard key =>
    match redis.live now key with
    | none => (0, redis)
    | some v => (v.set.card, redis)
  | .expire key seconds =>
    match redis.live now key with
    | none => (0, redis)
    | some v =>
      (1, redis.set key (if seconds ≤ 0 then none else some ⟨v.set, some (now + seconds)⟩))

/-- A pipeline, executed as one transaction: the replies of its commands. -/
def execute (redis : Redis) (now : ℚ) : List Command → List ℤ × Redis
  | [] => ([], redis)
  | c :: cs =>
    let (reply, redis) := redis.exec now c
    let (replies, redis) := redis.execute now cs
    (reply :: replies, redis)

end Redis

/-! ## The limiter -/

/-- A call of the limiter: its arguments, the time, which is never negative, and the identifier
that is drawn for it. -/
structure Call where
  key : String
  limit : ℤ
  windowSeconds : ℤ
  now : ℚ
  uuid : String
  now_nonneg : 0 ≤ now

/-- How a time is printed. -/
abbrev TimeText := ℚ → String

def Call.member (timeText : TimeText) (c : Call) : String := timeText c.now ++ ":" ++ c.uuid

def Call.cutoff (c : Call) : ℚ := c.now - c.windowSeconds

/-- The pipeline of a call. -/
def Call.pipeline (timeText : TimeText) (c : Call) : List Redis.Command :=
  [.zremrangebyscore c.key 0 c.cutoff,
    .zadd c.key (c.member timeText) c.now,
    .zcard c.key,
    .expire c.key c.windowSeconds]

/-- `_allow`. -/
def allow (timeText : TimeText) (redis : Redis) (c : Call) : Bool × Redis :=
  let (results, redis) := redis.execute c.now (c.pipeline timeText)
  let count := results.getD 2 0
  (decide (count ≤ c.limit), redis)

/-- The calls of a run with their answers, the last call first. -/
def allowAll (timeText : TimeText) : List Call → List (Call × Bool) × Redis
  | [] => ([], fun _ => none)
  | c :: past =>
    let (answers, redis) := allowAll timeText past
    let (allowed, redis) := allow timeText redis c
    ((c, allowed) :: answers, redis)

/-- The key that a command is about. -/
def Redis.Command.key : Redis.Command → String
  | .zremrangebyscore key _ _ | .zadd key _ _ | .zcard key | .expire key _ => key

namespace Redis

variable {redis : Redis} {now t : ℚ} {key k : String}

@[simp] theorem set_self (v : Option Value) : redis.set key v key = v := Function.update_self ..

theorem set_of_ne (h : k ≠ key) (v : Option Value) : redis.set key v k = redis k :=
  Function.update_of_ne h ..

theorem live_set (v : Option Value) :
    (redis.set key v).live now key = v.filter fun v => v.expiresAt.all fun e => decide (now ≤ e) := by
  rw [live, set_self]

/-- A command leaves the other keys as they are. -/
theorem exec_of_ne {cmd : Command} (h : k ≠ cmd.key) : (redis.exec now cmd).2 k = redis k := by
  cases cmd with
  | zremrangebyscore | zadd =>
    simp only [exec]
    split <;> exact set_of_ne h _
  | zcard | expire =>
    simp only [exec]
    split
    · rfl
    · first | rfl | exact set_of_ne h _

/-- So does a pipeline whose commands are about one key. -/
theorem execute_of_ne {cmds : List Command} (h : ∀ cmd ∈ cmds, k ≠ cmd.key) :
    (redis.execute now cmds).2 k = redis k := by
  induction cmds generalizing redis with
  | nil => rfl
  | cons cmd cmds ih =>
    have hk : k ≠ cmd.key := h cmd (.head _)
    exact (ih fun cmd' hc => h cmd' (.tail _ hc)).trans (exec_of_ne hk)

/-- The entries of a key at a time, none if it has expired. -/
def entries (redis : Redis) (now : ℚ) (key : String) : List (String × ℚ) :=
  ((redis.live now key).map fun v => v.set.entries).getD []

theorem entries_of_live {v : Value} (h : redis.live now key = some v) :
    redis.entries now key = v.set.entries := by
  rw [entries, h]
  rfl

theorem entries_of_not_live (h : redis.live now key = none) : redis.entries now key = [] := by
  rw [entries, h]
  rfl

theorem entries_congr {redis' : Redis} (h : redis' key = redis key) :
    redis'.entries now key = redis.entries now key := by
  rw [entries, entries, live, live, h]

theorem entries_set_none : (redis.set key none).entries now key = [] :=
  entries_of_not_live (by rw [live_set]; rfl)

/-- A value stays live for as long as its expiry says. -/
theorem entries_set_some {s : SortedSet} {expiresAt : Option ℚ} :
    (redis.set key (some ⟨s, expiresAt⟩)).entries now key =
      if expiresAt.all (fun e => decide (now ≤ e)) then s.entries else [] := by
  rw [entries, live_set, Option.filter_some]
  split <;> rfl

theorem expiresAt_of_live {v : Value} (h : redis.live now key = some v) :
    v.expiresAt.all (fun e => decide (now ≤ e)) = true := by
  obtain ⟨-, hv⟩ := Option.filter_eq_some_iff.1 h
  exact hv

/-! ### The commands -/

theorem entries_zremrangebyscore (min max : ℚ) :
    (redis.exec now (.zremrangebyscore key min max)).2.entries now key =
      (redis.entries now key).filter fun e => !(decide (min ≤ e.2) && decide (e.2 ≤ max)) := by
  cases h : redis.live now key with
  | none =>
    simp only [exec, h, entries_of_not_live h]
    exact entries_set_none
  | some v =>
    simp only [exec, h, entries_of_live h]
    split
    case isTrue he =>
      rw [entries_set_none]
      exact (List.isEmpty_iff.1 he).symm
    case isFalse =>
      rw [entries_set_some, if_pos (expiresAt_of_live h)]
      rfl

theorem entries_zadd (member : String) (score : ℚ) :
    (redis.exec now (.zadd key member score)).2.entries now key =
      (member, score) :: (redis.entries now key).filter fun e => !(e.1 == member) := by
  cases h : redis.live now key with
  | none =>
    simp only [exec, h, entries_of_not_live h]
    rw [entries_set_some]
    rfl
  | some v =>
    simp only [exec, h, entries_of_live h]
    rw [entries_set_some, if_pos (expiresAt_of_live h)]
    rfl

theorem zcard_reply : (redis.exec now (.zcard key)).1 = (redis.entries now key).length := by
  cases h : redis.live now key with
  | none =>
    simp only [exec, h, entries_of_not_live h]
    rfl
  | some v =>
    simp only [exec, h, entries_of_live h]
    rfl

theorem zcard_redis : (redis.exec now (.zcard key)).2 = redis := by
  simp only [exec]
  split <;> rfl

/-- A key that is there stays until its time to live has passed. -/
theorem entries_expire (seconds : ℤ) (h : redis.entries now key ≠ []) :
    (redis.exec now (.expire key seconds)).2.entries t key =
      if 0 < seconds ∧ t ≤ now + seconds then redis.entries now key else [] := by
  cases hl : redis.live now key with
  | none => exact absurd (entries_of_not_live hl) h
  | some v =>
    simp only [exec, hl, entries_of_live hl]
    by_cases hs : seconds ≤ 0
    · rw [if_pos hs, entries_set_none, if_neg (fun hc => absurd hc.1 hs.not_gt)]
    · rw [if_neg hs, entries_set_some]
      simp [not_le.1 hs]

end Redis

/-! ### The pipeline -/

section Allow

variable (timeText : TimeText) (redis : Redis) (c : Call)

/-- The entries that the pipeline counts. -/
def counted : List (String × ℚ) :=
  (c.member timeText, c.now) ::
    ((redis.entries c.now c.key).filter fun e => !(decide (0 ≤ e.2) && decide (e.2 ≤ c.cutoff))).filter
      fun e => !(e.1 == c.member timeText)

/-- The key after the first two commands. -/
theorem entries_counted :
    ((redis.exec c.now (.zremrangebyscore c.key 0 c.cutoff)).2.exec c.now
      (.zadd c.key (c.member timeText) c.now)).2.entries c.now c.key = counted timeText redis c := by
  rw [Redis.entries_zadd, Redis.entries_zremrangebyscore]
  rfl

theorem allow_fst :
    (allow timeText redis c).1 = decide (((counted timeText redis c).length : ℤ) ≤ c.limit) := by
  rw [← entries_counted, ← Redis.zcard_reply]
  rfl

theorem allow_entries (t : ℚ) :
    (allow timeText redis c).2.entries t c.key =
      if 0 < c.windowSeconds ∧ t ≤ c.now + c.windowSeconds then counted timeText redis c else [] := by
  have hc := entries_counted timeText redis c
  rw [← hc, ← Redis.entries_expire _ (by rw [hc]; exact List.cons_ne_nil _ _)]
  simp only [allow, Call.pipeline, Redis.execute, Redis.zcard_redis]

theorem allow_of_ne {k : String} (h : k ≠ c.key) : (allow timeText redis c).2 k = redis k := by
  have hk : ∀ cmd ∈ c.pipeline timeText, k ≠ cmd.key := by
    simpa [Call.pipeline, Redis.Command.key] using h
  exact Redis.execute_of_ne hk

end Allow

/-! ## The window -/

/-- The calls of a key. -/
def ofKey (key : String) (calls : List Call) : List Call := calls.filter fun c => c.key == key

/-- At any later time the entries within the window are the calls within the window, the last call
first. -/
structure Tracks (timeText : TimeText) (redis : Redis) (key : String) (window : ℤ)
    (past : List Call) : Prop where
  nonneg : ∀ t, ∀ e ∈ redis.entries t key, 0 ≤ e.2
  recent : ∀ t, (∀ c ∈ past, c.now ≤ t) → recent Prod.snd (window : ℚ) t (redis.entries t key) =
    (recent Call.now (window : ℚ) t past).map fun c => (c.member timeText, c.now)

section Tracks

variable {timeText : TimeText} {redis : Redis} {key : String} {window limit : ℤ} {past : List Call}
  {c : Call}

theorem Tracks.empty : Tracks timeText (fun _ => none) key window [] := ⟨fun _ => nofun, fun _ _ => rfl⟩

/-- A call sees the calls of its window, none of which has its member. -/
theorem Tracks.counted (h : Tracks timeText redis c.key c.windowSeconds past)
    (hnow : ∀ b ∈ past, b.now ≤ c.now) (hnew : ∀ b ∈ past, b.member timeText ≠ c.member timeText) :
    counted timeText redis c = (c.member timeText, c.now) ::
      (SlidingWindow.recent Call.now (c.windowSeconds : ℚ) c.now past).map
        fun b => (b.member timeText, b.now) := by
  have hkept : (redis.entries c.now c.key).filter
      (fun e => !(decide (0 ≤ e.2) && decide (e.2 ≤ c.cutoff))) =
      SlidingWindow.recent Prod.snd (c.windowSeconds : ℚ) c.now (redis.entries c.now c.key) := by
    refine List.filter_congr fun e he => ?_
    rw [decide_eq_true (h.nonneg _ e he), Bool.true_and, ← decide_not]
    exact decide_eq_decide.2 not_le
  rw [Gateway.counted, hkept, h.recent _ hnow]
  congr 1
  refine List.filter_eq_self.2 fun e he => ?_
  obtain ⟨b, hb, rfl⟩ := List.mem_map.1 he
  simpa using hnew b (mem_recent.1 hb).1

theorem Tracks.allow (h : Tracks timeText redis c.key c.windowSeconds past)
    (hnow : ∀ b ∈ past, b.now ≤ c.now) (hnew : ∀ b ∈ past, b.member timeText ≠ c.member timeText) :
    (allow timeText redis c).1 = decide (Admits Call.now c.limit c.windowSeconds c.now past) ∧
      Tracks timeText (allow timeText redis c).2 c.key c.windowSeconds (c :: past) := by
  have hcounted := h.counted hnow hnew
  refine ⟨?_, fun t e he => ?_, fun t ht => ?_⟩
  · rw [allow_fst, hcounted]
    refine decide_eq_decide.2 ?_
    rw [Admits, List.length_cons, List.length_map, Nat.cast_succ]
  · rw [allow_entries, hcounted] at he
    split at he
    case isFalse => cases he
    case isTrue =>
      obtain rfl | he := List.mem_cons.1 he
      · exact c.now_nonneg
      · obtain ⟨b, -, rfl⟩ := List.mem_map.1 he
        exact b.now_nonneg
  · have htc : c.now ≤ t := ht c (.head _)
    rw [allow_entries]
    split
    case isTrue =>
      -- What the window of `t` sees of the calls was in the window of the call.
      rw [hcounted, ← List.map_cons (f := fun b : Call => (b.member timeText, b.now)), recent_map]
      exact congrArg _ (recent_cons_recent htc)
    case isFalse hlive =>
      -- The key is gone, and the window of `t` starts after the call.
      have hend : c.now ≤ t - c.windowSeconds := by
        rcases not_and_or.1 hlive with hw | hw
        · have hw : (c.windowSeconds : ℚ) ≤ 0 := by exact_mod_cast not_lt.1 hw
          linarith
        · linarith
      have hpast : ∀ b ∈ c :: past, b.now ≤ t - c.windowSeconds := by
        refine List.forall_mem_cons.2 ⟨hend, fun b hb => ?_⟩
        exact (hnow b hb).trans hend
      rw [recent_eq_nil hpast]
      rfl

/-- A call of another key changes nothing. -/
theorem Tracks.allow_of_ne (h : Tracks timeText redis key window past) (hk : key ≠ c.key) :
    Tracks timeText (Gateway.allow timeText redis c).2 key window past := by
  have hentries : ∀ t, (Gateway.allow timeText redis c).2.entries t key = redis.entries t key :=
    fun t => Redis.entries_congr (Gateway.allow_of_ne timeText redis c hk)
  exact ⟨fun t => hentries t ▸ h.nonneg t, fun t => hentries t ▸ h.recent t⟩

end Tracks

/-! ## Runs -/

/-- The allowed calls of a key in a run. -/
def allowedOf (key : String) (answers : List (Call × Bool)) : List Call :=
  (answers.filter fun a => a.1.key == key && a.2).map Prod.fst

section Runs

variable {timeText : TimeText} {key : String} {limit window : ℤ} {calls : List Call}

/-- The next call of a key, after a run. -/
theorem Tracks.next {c : Call} {past : List Call} {redis : Redis}
    (h : Tracks timeText redis c.key c.windowSeconds (ofKey c.key past))
    (hsorted : (c :: past).Pairwise fun c b => b.now ≤ c.now)
    (hdistinct : ((c :: past).map (Call.member timeText)).Nodup) :
    (Gateway.allow timeText redis c).1 =
        decide (Admits Call.now c.limit c.windowSeconds c.now (ofKey c.key past)) ∧
      Tracks timeText (Gateway.allow timeText redis c).2 c.key c.windowSeconds
        (c :: ofKey c.key past) := by
  have hmem : ∀ b ∈ ofKey c.key past, b ∈ past := fun b hb => (List.mem_filter.1 hb).1
  obtain ⟨hnow, -⟩ := List.pairwise_cons.1 hsorted
  obtain ⟨hnew, -⟩ := List.nodup_cons.1 hdistinct
  refine h.allow (fun b hb => hnow b (hmem b hb)) fun b hb he => hnew ?_
  exact he ▸ List.mem_map_of_mem (hmem b hb)

/-- A run of the limiter answers the calls of a key as a sliding window does. -/
theorem allowAll_tracks (hsorted : calls.Pairwise fun c b => b.now ≤ c.now)
    (hdistinct : (calls.map (Call.member timeText)).Nodup)
    (hkey : ∀ c ∈ calls, c.key = key → c.limit = limit ∧ c.windowSeconds = window) :
    allowedOf key (allowAll timeText calls).1 = admitted Call.now limit window (ofKey key calls) ∧
      Tracks timeText (allowAll timeText calls).2 key window (ofKey key calls) := by
  induction calls with
  | nil => exact ⟨rfl, .empty⟩
  | cons c past ih =>
    obtain ⟨hc, hkey⟩ := List.forall_mem_cons.1 hkey
    obtain ⟨hallowed, htracks⟩ := ih hsorted.of_cons (List.nodup_cons.1 hdistinct).2 hkey
    by_cases hk : c.key = key
    case neg =>
      have hof : ofKey key (c :: past) = ofKey key past := List.filter_cons_of_neg (by simpa using hk)
      rw [hof]
      refine ⟨?_, htracks.allow_of_ne (Ne.symm hk)⟩
      rw [← hallowed]
      simp [allowAll, allowedOf, hk]
    case pos =>
      obtain ⟨hlimit, hwindow⟩ := hc hk
      subst hk hlimit hwindow
      have hof : ofKey c.key (c :: past) = c :: ofKey c.key past := List.filter_cons_of_pos (by simp)
      obtain ⟨hanswer, htracks⟩ := htracks.next hsorted hdistinct
      rw [hof]
      refine ⟨?_, htracks⟩
      rw [admitted, ← hallowed]
      by_cases ha : Admits Call.now c.limit (c.windowSeconds : ℚ) c.now (ofKey c.key past)
      · rw [if_pos ha]
        simp [allowAll, allowedOf, hanswer, ha]
      · rw [if_neg ha]
        simp [allowAll, allowedOf, hanswer, ha]

/-- **The law of the window**: a run of the limiter, the last call first, on an empty server, at
times that do not decrease. No half-open interval of the length of the window has more than `limit`
allowed calls of the key, and a call of the key is refused only if the window before it has at
least `limit` other calls of the key. -/
theorem rate_limit (timeText : TimeText) (calls : List Call) (key : String) (limit window : ℤ)
    (hsorted : calls.Pairwise fun c b => b.now ≤ c.now)
    (hdistinct : (calls.map (Call.member timeText)).Nodup)
    (hkey : ∀ c ∈ calls, c.key = key → c.limit = limit ∧ c.windowSeconds = window) :
    (∀ a : ℚ,
      (((allowedOf key (allowAll timeText calls).1).countP
        fun c => decide (a ≤ c.now ∧ c.now < a + window) : ℕ) : ℤ) ≤ max limit 0 ∧
      (((allowedOf key (allowAll timeText calls).1).countP
        fun c => decide (a < c.now ∧ c.now ≤ a + window) : ℕ) : ℤ) ≤ max limit 0) ∧
    ∀ c later past, calls = later ++ c :: past → c.key = key →
      (allow timeText (allowAll timeText past).2 c).1 = false →
      limit ≤ ((ofKey key past).countP fun b => decide (c.now - window < b.now ∧ b.now ≤ c.now) : ℕ) := by
  refine ⟨fun a => ?_, fun c later past hcalls hc hrefused => ?_⟩
  · rw [(allowAll_tracks hsorted hdistinct hkey).1]
    constructor
    · refine countP_admitted_le Call.now limit _ (fun b c hb hc => ?_) _
      have hb := of_decide_eq_true hb
      have hc := of_decide_eq_true hc
      linarith
    · refine countP_admitted_le Call.now limit _ (fun b c hb hc => ?_) _
      have hb := of_decide_eq_true hb
      have hc := of_decide_eq_true hc
      linarith
  · subst hcalls hc
    have hsuffix : (c :: past).Sublist (later ++ c :: past) := List.sublist_append_right _ _
    have hsorted := hsorted.sublist hsuffix
    have hdistinct := (hsuffix.map (Call.member timeText)).nodup hdistinct
    obtain ⟨hc, hpast⟩ := List.forall_mem_cons.1 fun b hb => hkey b (hsuffix.mem hb)
    obtain ⟨rfl, rfl⟩ := hc rfl
    obtain ⟨-, htracks⟩ := allowAll_tracks hsorted.of_cons (List.nodup_cons.1 hdistinct).2 hpast
    rw [(htracks.next hsorted hdistinct).1] at hrefused
    have hcount : (ofKey c.key past).countP
        (fun b => decide (c.now - c.windowSeconds < b.now ∧ b.now ≤ c.now)) =
        (recent Call.now (c.windowSeconds : ℚ) c.now (ofKey c.key past)).length := by
      rw [recent, ← List.countP_eq_length_filter]
      refine List.countP_congr fun b hb => ?_
      have hb : b.now ≤ c.now := (List.pairwise_cons.1 hsorted).1 b (List.mem_filter.1 hb).1
      simp [hb]
    have hfull := of_decide_eq_false hrefused
    unfold Admits at hfull
    rw [hcount]
    omega

/-- Of two calls within the window the second is refused, and the one after the window is not. -/
theorem rate_limit_run :
    (∀ a : ℚ,
      (((allowedOf "rl:user:u" (allowAll (fun _ => "t") [⟨"rl:user:u", 1, 60, 80, "c", by norm_num⟩,
          ⟨"rl:user:u", 1, 60, 20, "b", by norm_num⟩, ⟨"rl:user:u", 1, 60, 10, "a", by norm_num⟩]).1).countP
        fun c => decide (a ≤ c.now ∧ c.now < a + (60 : ℤ)) : ℕ) : ℤ) ≤ max 1 0) ∧
    (allow (fun _ => "t") (allowAll (fun _ => "t") [⟨"rl:user:u", 1, 60, 10, "a", by norm_num⟩]).2
      ⟨"rl:user:u", 1, 60, 20, "b", by norm_num⟩).1 = false ∧
    (allow (fun _ => "t") (allowAll (fun _ => "t") [⟨"rl:user:u", 1, 60, 20, "b", by norm_num⟩,
      ⟨"rl:user:u", 1, 60, 10, "a", by norm_num⟩]).2
      ⟨"rl:user:u", 1, 60, 80, "c", by norm_num⟩).1 = true := by
  have h := rate_limit (fun _ => "t") [⟨"rl:user:u", 1, 60, 80, "c", by norm_num⟩,
    ⟨"rl:user:u", 1, 60, 20, "b", by norm_num⟩, ⟨"rl:user:u", 1, 60, 10, "a", by norm_num⟩]
    "rl:user:u" 1 60 (by simp; norm_num) (by decide +kernel) (by simp)
  refine ⟨fun a => (h.1 a).1, ?_, ?_⟩
  · decide +kernel
  · decide +kernel

end Runs

end ChatBackend.Gateway
