import Mathlib

/-!
# Sliding windows

A limiter that records every call, admitted or not, and admits a call when the calls within the
window before it, itself included, are at most `limit` many. No window of the same length,
wherever it starts, has more than `limit` admitted calls (`countP_admitted_le`).
-/

namespace ChatBackend.SlidingWindow

variable {α T : Type} [AddCommGroup T] [LinearOrder T] (time : α → T)

/-- The calls within the window of length `w` that ends in `t`. -/
def recent (w t : T) (past : List α) : List α := past.filter fun c => decide (t - w < time c)

/-- A call at the time `t` is admitted. -/
def Admits (limit : ℤ) (w t : T) (past : List α) : Prop :=
  ((recent time w t past).length : ℤ) + 1 ≤ limit

instance (limit : ℤ) (w t : T) (past : List α) : Decidable (Admits time limit w t past) :=
  inferInstanceAs (Decidable (_ ≤ _))

/-- The admitted calls among the calls of a history, the last call first. -/
def admitted (limit : ℤ) (w : T) : List α → List α
  | [] => []
  | c :: past =>
    if Admits time limit w (time c) past then c :: admitted limit w past else admitted limit w past

theorem admitted_sublist (limit : ℤ) (w : T) (past : List α) :
    (admitted time limit w past).Sublist past := by
  induction past with
  | nil => exact .slnil
  | cons c past ih =>
    unfold admitted
    split
    · exact ih.cons_cons c
    · exact ih.cons c

/-- **At most `limit` calls are admitted in any window**: of calls whose times all lie within `w` of
each other at most `limit` are admitted. -/
theorem countP_admitted_le (limit : ℤ) (w : T) {P : α → Bool}
    (hP : ∀ b c, P b = true → P c = true → time c - w < time b) (past : List α) :
    ((admitted time limit w past).countP P : ℤ) ≤ max limit 0 := by
  induction past with
  | nil => simp [admitted]
  | cons c past ih =>
    unfold admitted
    split
    case isFalse => exact ih
    case isTrue h =>
      by_cases hc : P c = true
      case neg => rwa [List.countP_cons_of_neg hc]
      -- The calls counted before are all in the window that the limiter has looked at.
      have hsub : (admitted time limit w past).countP P ≤ past.countP P :=
        (admitted_sublist time limit w past).countP_le
      have hrec : past.countP P ≤ (recent time w (time c) past).length := by
        rw [recent, ← List.countP_eq_length_filter]
        refine List.countP_mono_left fun b _ hb => ?_
        exact decide_eq_true (hP b c hb hc)
      rw [List.countP_cons_of_pos hc]
      unfold Admits at h
      omega

variable {time} {w t : T} {past : List α}

theorem mem_recent {c : α} : c ∈ recent time w t past ↔ c ∈ past ∧ t - w < time c := by
  simp [recent]

/-- A window that starts after the last call sees nothing. -/
theorem recent_eq_nil (h : ∀ c ∈ past, time c ≤ t - w) : recent time w t past = [] := by
  refine List.filter_eq_nil_iff.2 fun c hc => ?_
  simpa using h c hc

/-- A window that has moved on sees nothing that it did not see before. -/
theorem recent_recent [IsOrderedAddMonoid T] {t' : T} (h : t ≤ t') :
    recent time w t' (recent time w t past) = recent time w t' past := by
  unfold recent
  rw [List.filter_filter]
  refine List.filter_congr fun c _ => ?_
  have hw : t - w ≤ t' - w := sub_le_sub_right h w
  by_cases hc : t' - w < time c
  · simp [hc, hw.trans_lt hc]
  · simp [hc]

theorem recent_cons_recent [IsOrderedAddMonoid T] {c : α} (h : time c ≤ t) :
    recent time w t (c :: recent time w (time c) past) = recent time w t (c :: past) := by
  unfold recent
  rw [List.filter_cons, List.filter_cons]
  have hrec : recent time w t (recent time w (time c) past) = recent time w t past := recent_recent h
  unfold recent at hrec
  rw [hrec]

theorem recent_map {β : Type} (f : β → α) (past : List β) :
    recent time w t (past.map f) = (recent (fun b => time (f b)) w t past).map f :=
  List.filter_map

end ChatBackend.SlidingWindow
