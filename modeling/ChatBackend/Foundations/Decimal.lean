import Mathlib

/-!
# Digits of a fixed width

Numbers in a base as a fixed number of digits, most significant first, and their reading. A number
that fits is read back (`read_write`).
-/

namespace ChatBackend.Decimal

/-- The digits of `n` in base `b`, at the given width. -/
def digits (b : ℕ) : (width n : ℕ) → List ℕ
  | 0, _ => []
  | width + 1, n => digits b width (n / b) ++ [n % b]

/-- The number of some digits. -/
def value (b : ℕ) (ds : List ℕ) : ℕ := ds.foldl (fun n d => n * b + d) 0

variable {b width n : ℕ}

@[simp] theorem length_digits : (digits b width n).length = width := by
  induction width generalizing n with
  | zero => rfl
  | succ width ih => rw [digits, List.length_append, ih, List.length_singleton]

theorem digits_lt (hb : 0 < b) : ∀ d ∈ digits b width n, d < b := by
  induction width generalizing n with
  | zero => exact nofun
  | succ width ih =>
    intro d hd
    obtain hd | hd := List.mem_append.1 hd
    · exact ih d hd
    · rw [List.mem_singleton.1 hd]
      exact Nat.mod_lt _ hb

theorem value_digits (h : n < b ^ width) : value b (digits b width n) = n := by
  induction width generalizing n with
  | zero =>
    have hn : n = 0 := by simpa using h
    rw [hn]
    rfl
  | succ width ih =>
    have hdiv : n / b < b ^ width := Nat.div_lt_of_lt_mul (by rwa [Nat.pow_succ, Nat.mul_comm] at h)
    rw [digits, value, List.foldl_append]
    show value b (digits b width (n / b)) * b + n % b = n
    rw [ih hdiv]
    exact Nat.div_add_mod' n b

/-! ## As characters -/

/-- The decimal and hexadecimal digits. -/
def digitChar (d : ℕ) : Char := "0123456789abcdef".toList.getD d '0'

/-- The digit of a character. -/
def digitVal (b : ℕ) (c : Char) : Option ℕ :=
  (("0123456789abcdef".toList.take b).findIdx? (· = c))

theorem digitVal_digitChar : ∀ b ≤ 16, ∀ d < b, digitVal b (digitChar d) = some d := by decide +kernel

/-- `n` as text of a fixed width. -/
def write (b width n : ℕ) : List Char := (digits b width n).map digitChar

/-- Text of digits as a number. -/
def read (b : ℕ) (text : List Char) : Option ℕ := (text.mapM (digitVal b)).map (value b)

@[simp] theorem length_write : (write b width n).length = width := by
  rw [write, List.length_map, length_digits]

/-- **What is written is read.** -/
theorem read_write (hb : 0 < b) (hb' : b ≤ 16) (h : n < b ^ width) :
    read b (write b width n) = some n := by
  have hmap : ∀ ds : List ℕ, (∀ d ∈ ds, d < b) → (ds.map digitChar).mapM (digitVal b) = some ds := by
    intro ds hds
    induction ds with
    | nil => rfl
    | cons d ds ih =>
      rw [List.map_cons, List.mapM_cons, digitVal_digitChar b hb' d (hds d (.head _)),
        ih fun d hd => hds d (.tail _ hd)]
      rfl
  rw [read, write, hmap _ (digits_lt hb), Option.map_some, value_digits h]

theorem value_lt {ds : List ℕ} (h : ∀ d ∈ ds, d < b) : value b ds < b ^ ds.length := by
  induction ds using List.reverseRecOn with
  | nil => exact Nat.one_pos
  | append_singleton ds d ih =>
    have hd : d < b := h d (by simp)
    have hds : value b ds + 1 ≤ b ^ ds.length := ih fun e he => h e (List.mem_append_left _ he)
    rw [value, List.foldl_append, List.length_append, List.length_singleton, Nat.pow_succ]
    calc value b ds * b + d < (value b ds + 1) * b := by rw [Nat.succ_mul]; omega
      _ ≤ b ^ ds.length * b := Nat.mul_le_mul_right b hds

theorem digitVal_lt {c : Char} {d : ℕ} (h : digitVal b c = some d) : d < b := by
  have hlt := (List.findIdx?_eq_some_iff_findIdx_eq.1 h).1
  exact Nat.lt_of_lt_of_le hlt (List.length_take_le b _)

/-- **What is read fits.** -/
theorem read_lt {text : List Char} (h : read b text = some n) : n < b ^ text.length := by
  obtain ⟨ds, hds, rfl⟩ := Option.map_eq_some_iff.1 h
  have hmap : ds.length = text.length ∧ ∀ d ∈ ds, d < b := by
    clear h
    induction text generalizing ds with
    | nil =>
      cases hds
      exact ⟨rfl, nofun⟩
    | cons c text ih =>
      rw [List.mapM_cons] at hds
      obtain ⟨d, hd, hrest⟩ := Option.bind_eq_some_iff.1 hds
      obtain ⟨ds', hds', hcons⟩ := Option.bind_eq_some_iff.1 hrest
      cases hcons
      obtain ⟨hlen, hall⟩ := ih ds' hds'
      exact ⟨congrArg (· + 1) hlen, List.forall_mem_cons.2 ⟨digitVal_lt hd, hall⟩⟩
  rw [← hmap.1]
  exact value_lt hmap.2

/-- The characters that are written. -/
theorem mem_write {c : Char} (hb : 0 < b) (hb' : b ≤ 16) (hc : c ∈ write b width n) :
    c ∈ "0123456789abcdef".toList := by
  obtain ⟨d, hd, rfl⟩ := List.mem_map.1 hc
  have hlt : d < 16 := Nat.lt_of_lt_of_le (digits_lt hb d hd) hb'
  have hmem : ∀ d < 16, digitChar d ∈ "0123456789abcdef".toList := by decide +kernel
  exact hmem d hlt

end ChatBackend.Decimal
