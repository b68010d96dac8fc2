import Mathlib

/-!
# Splitting and joining

Lists that are split at a separator and joined again: what a joined list is made of, and that the
parts of a split hold no separator.
-/

namespace ChatBackend.Splitting

variable {α : Type} {sep l w : List α} {ws : List (List α)} {c x : α}

theorem mem_intercalate (hw : w ∈ ws) (hc : c ∈ w) : c ∈ sep.intercalate ws := by
  induction ws with
  | nil => cases hw
  | cons v ws ih =>
    by_cases hnil : ws = []
    · subst hnil
      rw [List.intercalate_singleton, ← List.mem_singleton.1 hw]
      exact hc
    · rw [List.intercalate_cons_of_ne_nil hnil]
      rcases List.mem_cons.1 hw with rfl | hw
      · exact List.mem_append_left _ (List.mem_append_left _ hc)
      · exact List.mem_append_right _ (ih hw)

theorem mem_of_mem_intercalate (h : c ∈ sep.intercalate ws) : c ∈ sep ∨ ∃ w ∈ ws, c ∈ w := by
  induction ws with
  | nil => cases h
  | cons v ws ih =>
    by_cases hnil : ws = []
    · subst hnil
      rw [List.intercalate_singleton] at h
      exact .inr ⟨v, .head _, h⟩
    · rw [List.intercalate_cons_of_ne_nil hnil, List.mem_append, List.mem_append] at h
      obtain (hv | hsep) | hrest := h
      · exact .inr ⟨v, .head _, hv⟩
      · exact .inl hsep
      · exact (ih hrest).imp_right fun ⟨w, hw, hc⟩ => ⟨w, .tail _ hw, hc⟩

variable [DecidableEq α]

/-- The parts hold no separator. -/
theorem not_mem_of_mem_splitOn (h : w ∈ l.splitOn x) : x ∉ w := by
  induction l generalizing w with
  | nil =>
    rw [List.splitOn_nil, List.mem_singleton] at h
    subst h
    exact List.not_mem_nil
  | cons a l ih =>
    rw [List.splitOn_cons_eq_if_modifyHead] at h
    split at h
    · obtain rfl | h := List.mem_cons.1 h
      · exact List.not_mem_nil
      · exact ih h
    · rename_i hne
      cases hparts : l.splitOn x with
      | nil => exact absurd hparts (List.splitOn_ne_nil x l)
      | cons v vs =>
        rw [hparts] at h ih
        obtain rfl | h := List.mem_cons.1 h
        · intro hx
          obtain rfl | hx := List.mem_cons.1 hx
          · exact hne (beq_self_eq_true _)
          · exact ih (.head _) hx
        · exact ih (.tail _ h)

/-- The parts are made of what the list is made of. -/
theorem mem_of_mem_splitOn (hw : w ∈ l.splitOn x) (hc : c ∈ w) : c ∈ l := by
  have h : c ∈ [x].intercalate (l.splitOn x) := mem_intercalate hw hc
  rwa [List.intercalate_splitOn] at h

end ChatBackend.Splitting
