import Mathlib

/-!
# Rows with a key

Lists of rows that are found by a key: the row of a key, and what replacing, adding and removing a
row does with the rows of all keys, with the keys, and with a sum over the rows.
-/

namespace ChatBackend.Keyed

variable {α K : Type} [DecidableEq K] (key : α → K)

/-- The row of a key. -/
def get (l : List α) (k : K) : Option α := l.find? fun a => key a = k

/-- The rows, with `row` for the one of its key. -/
def set (l : List α) (row : α) : List α := l.map fun a => if key a = key row then row else a

/-- The rows but that of a key. -/
def erase (l : List α) (k : K) : List α := l.filter fun a => key a ≠ k

variable {key} {l : List α} {row a : α} {k k' : K}

theorem mem_of_get (h : get key l k = some a) : a ∈ l ∧ key a = k :=
  ⟨List.mem_of_find?_eq_some h, by simpa using List.find?_some h⟩

theorem get_eq_none : get key l k = none ↔ ∀ a ∈ l, key a ≠ k := by
  simp [get, List.find?_eq_none]

theorem get_set : get key (set key l row) k =
    if k = key row then (get key l k).map fun _ => row else get key l k := by
  induction l with
  | nil => simp [get, set]
  | cons a l ih =>
    by_cases ha : key a = key row
    · by_cases hk : k = key row
      · simp [get, set, ha, hk]
      · have hak : ¬key a = k := fun h => hk (h.symm.trans ha)
        have hrow : ¬key row = k := fun h => hk h.symm
        simpa [get, set, ha, hk, hak, hrow] using ih
    · by_cases hk : key a = k
      · have hne : ¬k = key row := fun h => ha (hk.trans h)
        simp [get, set, hk, hne]
      · simpa [get, set, ha, hk] using ih

theorem get_append (h : get key l (key row) = none) : get key (l ++ [row]) k =
    if k = key row then some row else get key l k := by
  by_cases hk : k = key row
  · have hnone : l.find? (fun a => key a = key row) = none := h
    simp [get, hk, List.find?_append, hnone]
  · have hne : ¬key row = k := fun h => hk h.symm
    simp [get, hk, List.find?_append, hne]

theorem get_erase : get key (erase key l k') k = if k = k' then none else get key l k := by
  by_cases hk : k = k'
  · rw [if_pos hk, get_eq_none]
    intro a ha
    have hne : key a ≠ k' := of_decide_eq_true (List.mem_filter.1 ha).2
    rwa [hk]
  · rw [if_neg hk, get, erase, List.find?_filter]
    congr 1
    funext a
    by_cases ha : key a = k
    · have hne : key a ≠ k' := fun h => hk (ha.symm.trans h)
      simp [ha, hk]
    · simp [ha]

@[simp] theorem map_key_set : (set key l row).map key = l.map key := by
  rw [set, List.map_map]
  refine List.map_congr_left fun a _ => ?_
  by_cases h : key a = key row <;> simp [h]

@[simp] theorem length_set : (set key l row).length = l.length := List.length_map _

theorem nodup_erase (h : (l.map key).Nodup) : ((erase key l k).map key).Nodup :=
  h.sublist (List.filter_sublist.map key)

theorem nodup_append (h : (l.map key).Nodup) (hrow : get key l (key row) = none) :
    ((l ++ [row]).map key).Nodup := by
  rw [List.map_append, List.map_singleton, List.nodup_append]
  refine ⟨h, List.nodup_cons.2 ⟨nofun, .nil⟩, fun k hk k' hk' => ?_⟩
  obtain ⟨a, ha, rfl⟩ := List.mem_map.1 hk
  rw [List.mem_singleton.1 hk']
  exact get_eq_none.1 hrow a ha

/-- A row with its key is the row of the key. -/
theorem get_of_mem (h : (l.map key).Nodup) (ha : a ∈ l) : get key l (key a) = some a := by
  induction l with
  | nil => cases ha
  | cons b l ih =>
    rw [List.map_cons, List.nodup_cons] at h
    obtain rfl | ha := List.mem_cons.1 ha
    · simp [get]
    · have hne : ¬key b = key a := fun hb => h.1 (hb ▸ List.mem_map_of_mem ha)
      simpa [get, hne] using ih h.2 ha

/-- Replacing a row changes a sum by the difference of the rows. -/
theorem sum_set (g : α → ℕ) (h : (l.map key).Nodup) (ha : a ∈ l) (hrow : key a = key row) :
    ((set key l row).map g).sum + g a = (l.map g).sum + g row := by
  induction l with
  | nil => cases ha
  | cons b l ih =>
    rw [List.map_cons, List.nodup_cons] at h
    obtain rfl | ha := List.mem_cons.1 ha
    · have hrest : set key l row = l := by
        refine (List.map_congr_left fun c hc => if_neg fun hkey => h.1 ?_).trans (List.map_id l)
        rw [hrow, ← hkey]
        exact List.mem_map_of_mem hc
      have hcons : set key (a :: l) row = row :: set key l row := by simp [set, hrow]
      rw [hcons, hrest, List.map_cons, List.map_cons, List.sum_cons, List.sum_cons]
      omega
    · have hne : key b ≠ key row := fun hb => h.1 (by rw [hb, ← hrow]; exact List.mem_map_of_mem ha)
      have hcons : set key (b :: l) row = b :: set key l row := by simp [set, hne]
      rw [hcons, List.map_cons, List.map_cons, List.sum_cons, List.sum_cons]
      have := ih h.2 ha
      omega

theorem sum_erase_le (g : α → ℕ) : ((erase key l k).map g).sum ≤ (l.map g).sum :=
  (List.filter_sublist.map g).sum_le_sum fun _ _ => Nat.zero_le _

theorem length_erase_le : (erase key l k).length ≤ l.length := List.length_filter_le _ _

end ChatBackend.Keyed
