import ChatBackend.Foundations.Keyset
import Mathlib

/-!
# Rows in the order of a key

`orderBy` lists rows from the smallest key up. Where the keys of the rows differ there is one such list
(`orderBy_unique`), so that two keys list rows alike exactly if they order them alike
(`orderBy_eq_iff`).
-/

namespace ChatBackend.Keyset

variable {α κ μ : Type} [LinearOrder κ] [LinearOrder μ]

/-- `ORDER BY key`. -/
def orderBy (key : α → κ) (rows : List α) : List α := rows.insertionSort fun a b => key a ≤ key b

section Order

variable {key : α → κ} {rows : List α}

theorem orderBy_perm : (orderBy key rows).Perm rows := List.perm_insertionSort _ _

theorem orderBy_pairwise : (orderBy key rows).Pairwise fun a b => key a ≤ key b := by
  have : Std.Total fun a b : α => key a ≤ key b := ⟨fun a b => le_total (key a) (key b)⟩
  have : IsTrans α fun a b : α => key a ≤ key b := ⟨fun a b c hab hbc => le_trans hab hbc⟩
  exact List.pairwise_insertionSort _ _

theorem mem_orderBy {a : α} : a ∈ orderBy key rows ↔ a ∈ rows := orderBy_perm.mem_iff

/-- Rows with keys of their own are in order in one way. -/
theorem orderBy_unique (hkey : ∀ a ∈ rows, ∀ b ∈ rows, key a = key b → a = b) {l : List α}
    (hperm : l.Perm rows) (hl : l.Pairwise fun a b => key a ≤ key b) : orderBy key rows = l := by
  refine List.Perm.eq_of_pairwise (fun a b ha hb hab hba => ?_) orderBy_pairwise hl
    (orderBy_perm.trans hperm.symm)
  exact hkey a (mem_orderBy.1 ha) b (hperm.mem_iff.1 hb) (le_antisymm hab hba)

theorem orderBy_filter (hkey : ∀ a ∈ rows, ∀ b ∈ rows, key a = key b → a = b) (p : α → Bool) :
    orderBy key (rows.filter p) = (orderBy key rows).filter p :=
  orderBy_unique (fun a ha b hb => hkey a (List.mem_of_mem_filter ha) b (List.mem_of_mem_filter hb))
    (orderBy_perm.filter p) (orderBy_pairwise.filter p)

/-- The first row from the largest key down is the last one from the smallest up. -/
theorem head?_sorted (hkey : ∀ a ∈ rows, ∀ b ∈ rows, key a = key b → a = b) :
    (sorted key rows).head? = (orderBy key rows).getLast? := by
  have hrev : orderBy key rows = (sorted key rows).reverse :=
    orderBy_unique hkey ((sorted key rows).reverse_perm.trans (sorted_perm rows))
      (List.pairwise_reverse.2 (sorted_pairwise rows))
  rw [hrev, List.getLast?_reverse]

end Order

/-- Two keys list rows alike exactly if they order them alike. -/
theorem orderBy_eq_iff {f : α → κ} {g : α → μ} {rows : List α}
    (hf : ∀ a ∈ rows, ∀ b ∈ rows, f a = f b → a = b)
    (hg : ∀ a ∈ rows, ∀ b ∈ rows, g a = g b → a = b) :
    orderBy f rows = orderBy g rows ↔ ∀ a ∈ rows, ∀ b ∈ rows, g a < g b → f a < f b := by
  constructor
  · intro h a ha b hb hlt
    have hpair : (orderBy f rows).Pairwise fun x y => f x ≤ f y ∧ g x ≤ g y := by
      refine orderBy_pairwise.and ?_
      rw [h]
      exact orderBy_pairwise
    have : Std.Symm fun x y : α => f x ≤ f y ∧ g x ≤ g y ∨ f y ≤ f x ∧ g y ≤ g x :=
      ⟨fun _ _ => Or.symm⟩
    have hboth : (orderBy f rows).Pairwise
        fun x y => f x ≤ f y ∧ g x ≤ g y ∨ f y ≤ f x ∧ g y ≤ g x :=
      hpair.imp fun hxy => Or.inl hxy
    have hrefl : ∀ x ∈ orderBy f rows, f x ≤ f x ∧ g x ≤ g x ∨ f x ≤ f x ∧ g x ≤ g x :=
      fun x _ => Or.inl ⟨le_rfl, le_rfl⟩
    have hall := List.Pairwise.forall_of_forall hrefl hboth
    rcases hall (mem_orderBy.2 ha) (mem_orderBy.2 hb) with ⟨hle, -⟩ | ⟨-, hle⟩
    · refine lt_of_le_of_ne hle fun he => ?_
      rw [hf a ha b hb he] at hlt
      exact lt_irrefl _ hlt
    · exact absurd hle (not_le.2 hlt)
  · intro h
    refine orderBy_unique hf orderBy_perm (orderBy_pairwise.imp_of_mem fun {a b} ha hb hle => ?_)
    rcases lt_or_eq_of_le hle with hlt | heq
    · exact (h a (mem_orderBy.1 ha) b (mem_orderBy.1 hb) hlt).le
    · rw [hg a (mem_orderBy.1 ha) b (mem_orderBy.1 hb) heq]

end ChatBackend.Keyset
