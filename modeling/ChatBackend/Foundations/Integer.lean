import ChatBackend.Foundations.Decimal
import Mathlib

/-!
# Integers as text

The decimal text of an integer, and the lenient reading of one: blanks around it, a sign, leading
zeros and single underscores between the digits. Writing and reading both refuse more digits than a
limit. What is written is read (`read_write`), and what is read can be written (`exists_write`).
-/

namespace ChatBackend.Integer

/-- The digits of a number, without leading zeros. -/
def natText (n : ℕ) : List Char := Decimal.write 10 (Nat.log 10 n + 1) n

/-- `str(n)`: the limit is on the digits. -/
def write (limit : ℕ) (n : ℤ) : Option (List Char) :=
  if (natText n.natAbs).length ≤ limit then
    some ((if n < 0 then ['-'] else []) ++ natText n.natAbs)
  else none

/-- The blanks around a number. -/
def isSpace (c : Char) : Bool := c = ' ' || (9 ≤ c.toNat && c.toNat ≤ 13)

/-- The digits of a number, with single underscores between them. -/
def readNat (limit : ℕ) (text : List Char) : Option ℕ :=
  let parts := text.splitOn '_'
  if parts.all (· ≠ []) ∧ parts.flatten.length ≤ limit then Decimal.read 10 parts.flatten else none

/-- `int(text)`. -/
def read (limit : ℕ) (text : List Char) : Option ℤ :=
  match (text.dropWhile isSpace).rdropWhile isSpace with
  | '-' :: digits => (readNat limit digits).map fun n : ℕ => -(n : ℤ)
  | '+' :: digits => (readNat limit digits).map fun n : ℕ => (n : ℤ)
  | digits => (readNat limit digits).map fun n : ℕ => (n : ℤ)

example : read 5 " +0_12\n".toList = some 12 := by decide +kernel

example : read 5 "1__2".toList = none ∧ read 5 "- 1".toList = none ∧ read 2 "123".toList = none := by
  decide +kernel

variable {limit : ℕ} {n : ℤ} {text : List Char}

/-! ## What is written -/

theorem natText_ne_nil (m : ℕ) : natText m ≠ [] := by
  intro h
  have hlen := congrArg List.length h
  rw [natText, Decimal.length_write] at hlen
  exact absurd hlen (Nat.succ_ne_zero _)

/-- The characters of a number. -/
theorem natText_plain {m : ℕ} {c : Char} (hc : c ∈ natText m) :
    c ≠ '_' ∧ c ≠ '-' ∧ c ≠ '+' ∧ isSpace c = false := by
  have hdigits : "0123456789abcdef".toList.all
      (fun c => decide (c ≠ '_' ∧ c ≠ '-' ∧ c ≠ '+' ∧ isSpace c = false)) = true := by decide +kernel
  exact of_decide_eq_true (List.all_eq_true.1 hdigits c (Decimal.mem_write (by decide) (by decide) hc))

/-- The limit is on the number itself. -/
theorem length_natText_le (h : 0 < limit) (m : ℕ) : (natText m).length ≤ limit ↔ m < 10 ^ limit := by
  rw [natText, Decimal.length_write, Nat.add_one_le_iff]
  constructor
  · exact fun hlog => Nat.lt_pow_of_log_lt (by decide) hlog
  · exact fun hlt => Nat.log_lt_of_lt_pow' (Nat.pos_iff_ne_zero.1 h) hlt

/-- What can be written. -/
theorem exists_write_iff (h : 0 < limit) : (∃ t, write limit n = some t) ↔ n.natAbs < 10 ^ limit := by
  rw [← length_natText_le h, write]
  constructor
  · rintro ⟨t, ht⟩
    by_contra hlen
    rw [if_neg hlen] at ht
    cases ht
  · exact fun hlen => ⟨_, if_pos hlen⟩

theorem write_eq (h : write limit n = some text) :
    text = (if n < 0 then ['-'] else []) ++ natText n.natAbs ∧ (natText n.natAbs).length ≤ limit := by
  rw [write] at h
  split at h
  · rename_i hlen
    exact ⟨(Option.some.inj h).symm, hlen⟩
  · cases h

theorem mem_write {c : Char} (h : write limit n = some text) (hc : c ∈ text) :
    c = '-' ∨ c ∈ natText n.natAbs := by
  rw [(write_eq h).1, List.mem_append] at hc
  rcases hc with hc | hc
  · split at hc
    · exact .inl (List.mem_singleton.1 hc)
    · cases hc
  · exact .inr hc

/-! ## What is read -/

theorem readNat_natText {m : ℕ} (h : (natText m).length ≤ limit) : readNat limit (natText m) = some m := by
  have hsplit : (natText m).splitOn '_' = [natText m] :=
    List.splitOn_eq_singleton fun hc => (natText_plain hc).1 rfl
  have hcond : [natText m].all (· ≠ []) = true ∧ [natText m].flatten.length ≤ limit := by
    simpa [natText_ne_nil] using h
  rw [readNat, hsplit, if_pos hcond, List.flatten_cons, List.flatten_nil, List.append_nil]
  exact Decimal.read_write (by decide) (by decide) (Nat.lt_pow_succ_log_self (by decide) m)

theorem strip_eq_self (h : ∀ c ∈ text, isSpace c = false) :
    (text.dropWhile isSpace).rdropWhile isSpace = text := by
  have hleft : text.dropWhile isSpace = text :=
    List.dropWhile_eq_self_iff.2 fun hpos => by simp [h _ (List.getElem_mem hpos)]
  rw [hleft]
  exact List.rdropWhile_eq_self_iff.2 fun hne => by simp [h _ (List.getLast_mem hne)]

/-- **What is written is read.** -/
theorem read_write (h : write limit n = some text) : read limit text = some n := by
  have hspace : ∀ c ∈ text, isSpace c = false := by
    intro c hc
    rcases mem_write h hc with rfl | hc
    · decide
    · exact (natText_plain hc).2.2.2
  obtain ⟨rfl, hlen⟩ := write_eq h
  rw [read, strip_eq_self hspace]
  by_cases hneg : n < 0
  · have habs : -((n.natAbs : ℕ) : ℤ) = n := by omega
    simp only [hneg, if_true, List.singleton_append]
    rw [readNat_natText hlen, Option.map_some, habs]
  · have habs : ((n.natAbs : ℕ) : ℤ) = n := by omega
    simp only [hneg, if_false, List.nil_append]
    split
    · rename_i digits heq
      exact absurd rfl (natText_plain (heq ▸ List.mem_cons_self)).2.1
    · rename_i digits heq
      exact absurd rfl (natText_plain (heq ▸ List.mem_cons_self)).2.2.1
    · rw [readNat_natText hlen, Option.map_some, habs]

theorem readNat_lt {m : ℕ} (h : readNat limit text = some m) : m < 10 ^ limit := by
  rw [readNat] at h
  split at h
  · rename_i hcond
    exact lt_of_lt_of_le (Decimal.read_lt h) (Nat.pow_le_pow_right (by decide) hcond.2)
  · cases h

/-- **What is read can be written.** -/
theorem exists_write (hpos : 0 < limit) (h : read limit text = some n) :
    ∃ t, write limit n = some t := by
  rw [exists_write_iff hpos]
  rw [read] at h
  split at h
  all_goals
    obtain ⟨m, hm, rfl⟩ := Option.map_eq_some_iff.1 h
    have hlt := readNat_lt hm
    omega

end ChatBackend.Integer
