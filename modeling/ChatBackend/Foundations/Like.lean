import Mathlib

/-!
# Patterns of `LIKE`

Patterns over an alphabet with three special symbols: one stands for any text, one for any symbol,
and one takes the special meaning from the symbol behind it. A text without special symbols is found
between two wildcards exactly where it occurs (`found_plain`); one with a special symbol is found in
a text where it does not occur (`found_sample`, `not_infix_sample`).
-/

namespace ChatBackend.Like

variable {α : Type}

/-- The special symbols. -/
structure Specials (α : Type) where
  many : α
  any : α
  escape : α
  many_ne_any : many ≠ any
  many_ne_escape : many ≠ escape
  any_ne_escape : any ≠ escape

/-- An item of a pattern. -/
inductive Item (α : Type) : Type
  | lit (c : α)
  | any
  | many

variable [DecidableEq α] (sp : Specials α)

/-- A symbol that is not special. -/
def Plain (c : α) : Prop := c ≠ sp.many ∧ c ≠ sp.any ∧ c ≠ sp.escape

/-- The item of a symbol that is not escaped. -/
def item (c : α) : Item α := if c = sp.many then .many else if c = sp.any then .any else .lit c

/-- The items of a pattern. An escape at the end, which is an error, stands for itself. -/
def items : List α → List (Item α)
  | [] => []
  | [c] => [item sp c]
  | c :: d :: l => if c = sp.escape then .lit d :: items l else item sp c :: items (d :: l)

/-- The text matches the items as a whole. -/
def run : List (Item α) → List α → Bool
  | [], text => text.isEmpty
  | .lit c :: ps, text => match text with
    | [] => false
    | d :: text => d = c && run ps text
  | .any :: ps, text => match text with
    | [] => false
    | _ :: text => run ps text
  | .many :: ps, text => text.tails.any fun rest => run ps rest

/-- The text matches the pattern between two wildcards. -/
def found (l text : List α) : Bool := run (items sp (sp.many :: l ++ [sp.many])) text

variable {sp}

theorem items_cons {c : α} (hc : c ≠ sp.escape) (l : List α) :
    items sp (c :: l) = item sp c :: items sp l := by
  cases l with
  | nil => rfl
  | cons d l => rw [items, if_neg hc]

theorem run_many {ps : List (Item α)} {text : List α} :
    run (.many :: ps) text = true ↔ ∃ rest, rest <:+ text ∧ run ps rest = true := by
  rw [run, List.any_eq_true]
  exact exists_congr fun rest => and_congr_left fun _ => List.mem_tails _ _

/-- A wildcard at the end matches everything. -/
theorem run_many_nil (text : List α) : run ([.many] : List (Item α)) text = true :=
  run_many.2 ⟨[], List.nil_suffix, rfl⟩

theorem found_iff {l text : List α} :
    found sp l text = true ↔
      ∃ rest, rest <:+ text ∧ run (items sp (l ++ [sp.many])) rest = true := by
  have hitem : item sp sp.many = .many := if_pos rfl
  rw [found, List.cons_append, items_cons sp.many_ne_escape, hitem, run_many]

/-- Plain symbols match themselves. -/
theorem run_plain {l text : List α} (hl : ∀ c ∈ l, Plain sp c) :
    run (items sp (l ++ [sp.many])) text = true ↔ l <+: text := by
  induction l generalizing text with
  | nil =>
    have hitem : items sp [sp.many] = [.many] := congrArg (fun p => [p]) (if_pos rfl)
    rw [List.nil_append, hitem]
    exact ⟨fun _ => List.nil_prefix, fun _ => run_many_nil text⟩
  | cons c l ih =>
    obtain ⟨hmany, hany, hescape⟩ := hl c (.head _)
    have hitem : item sp c = .lit c := by rw [item, if_neg hmany, if_neg hany]
    rw [List.cons_append, items_cons hescape, hitem]
    cases text with
    | nil => exact ⟨fun h => (nomatch h), fun h => absurd (List.prefix_nil.1 h) nofun⟩
    | cons d text =>
      rw [run, Bool.and_eq_true, decide_eq_true_eq, ih fun c hc => hl c (.tail _ hc),
        List.cons_prefix_cons, eq_comm]

/-- **A plain text is found where it occurs.** -/
theorem found_plain {l text : List α} (hl : ∀ c ∈ l, Plain sp c) :
    found sp l text = true ↔ l <:+: text := by
  rw [found_iff, List.infix_iff_prefix_suffix]
  exact exists_congr fun rest => by rw [run_plain hl, and_comm]

/-! ## Samples -/

/-- A text that the items match: nothing for any text, and `x` for any symbol. -/
def sampleOf (x : α) : List (Item α) → List α
  | [] => []
  | .lit c :: ps => c :: sampleOf x ps
  | .any :: ps => x :: sampleOf x ps
  | .many :: ps => sampleOf x ps

/-- The sample of a pattern in front of a wildcard. -/
def sample (sp : Specials α) (x : α) (l : List α) : List α :=
  sampleOf x (items sp (l ++ [sp.many]))

variable {x : α}

theorem run_sampleOf (ps : List (Item α)) : run ps (sampleOf x ps) = true := by
  induction ps with
  | nil => rfl
  | cons p ps ih =>
    cases p with
    | lit c => rw [sampleOf, run, ih, decide_eq_true rfl, Bool.and_self]
    | any => rw [sampleOf, run, ih]
    | many => exact run_many.2 ⟨_, List.suffix_rfl, ih⟩

/-- **A pattern is found in its sample.** -/
theorem found_sample (l : List α) : found sp l (sample sp x l) = true :=
  found_iff.2 ⟨_, List.suffix_rfl, run_sampleOf _⟩

/-- The sample of a symbol that is not escaped. -/
theorem sampleOf_item (hx : x ≠ sp.any) (c : α) (ps : List (Item α)) :
    sampleOf x (item sp c :: ps) = sampleOf x ps ∨
      ∃ c', sampleOf x (item sp c :: ps) = c' :: sampleOf x ps ∧
        (c ≠ sp.escape → c' = c → Plain sp c) := by
  by_cases hmany : c = sp.many
  · rw [item, if_pos hmany]
    exact .inl rfl
  · by_cases hany : c = sp.any
    · rw [item, if_neg hmany, if_pos hany]
      refine .inr ⟨x, rfl, fun _ h => absurd (h.trans hany) hx⟩
    · rw [item, if_neg hmany, if_neg hany]
      exact .inr ⟨c, rfl, fun hescape _ => ⟨hmany, hany, hescape⟩⟩

theorem sample_nil : sample sp x [] = [] := by
  have hitem : item sp sp.many = .many := if_pos rfl
  rw [sample, List.nil_append, items, hitem]
  rfl

theorem sample_escape (d : α) (l : List α) :
    sample sp x (sp.escape :: d :: l) = d :: sample sp x l := by
  rw [sample, List.cons_append, List.cons_append, items, if_pos rfl]
  rfl

theorem sample_cons {c : α} (hc : c ≠ sp.escape) (l : List α) :
    sample sp x (c :: l) = sampleOf x (item sp c :: items sp (l ++ [sp.many])) := by
  rw [sample, List.cons_append, items_cons hc]

/-- A sample is not longer than the pattern, and the same only for plain symbols. -/
theorem sample_le (hx : x ≠ sp.any) (l : List α) :
    (sample sp x l).length ≤ l.length ∧ (sample sp x l = l → ∀ c ∈ l, Plain sp c) := by
  have hstep : ∀ (c : α) (l : List α), c ≠ sp.escape →
      ((sample sp x l).length ≤ l.length ∧ (sample sp x l = l → ∀ c ∈ l, Plain sp c)) →
      (sample sp x (c :: l)).length ≤ (c :: l).length ∧
        (sample sp x (c :: l) = c :: l → ∀ c' ∈ c :: l, Plain sp c') := by
    intro c l hc ih
    rw [sample_cons hc]
    obtain hskip | ⟨c', hcons, hplain⟩ := sampleOf_item hx c (items sp (l ++ [sp.many]))
    · rw [hskip]
      refine ⟨Nat.le_succ_of_le ih.1, fun heq => ?_⟩
      have hlength : (sample sp x l).length = l.length + 1 := congrArg List.length heq
      omega
    · rw [hcons]
      refine ⟨Nat.succ_le_succ ih.1, fun heq => ?_⟩
      obtain ⟨hhead, htail⟩ := List.cons.inj heq
      exact List.forall_mem_cons.2 ⟨hplain hc hhead, ih.2 htail⟩
  have hnil : (sample sp x []).length ≤ ([] : List α).length ∧
      (sample sp x [] = [] → ∀ c ∈ ([] : List α), Plain sp c) := by
    rw [sample_nil]
    exact ⟨Nat.le_refl _, fun _ c hc => absurd hc List.not_mem_nil⟩
  induction l using items.induct sp with
  | case1 => exact hnil
  | case2 c =>
    by_cases hc : c = sp.escape
    · have hsample : sample sp x [c] = [sp.many] := by
        rw [hc, sample, List.cons_append, List.nil_append, items, if_pos rfl]
        rfl
      rw [hsample]
      refine ⟨Nat.le_refl _, fun heq => ?_⟩
      exact absurd ((List.cons.inj heq).1.trans hc) sp.many_ne_escape
    · exact hstep c [] hc hnil
  | case3 d l ih =>
    rw [sample_escape]
    refine ⟨Nat.le_succ_of_le (Nat.succ_le_succ ih.1), fun heq => ?_⟩
    have hlength : (sample sp x l).length + 1 = l.length + 2 := congrArg List.length heq
    omega
  | case4 c d l hc ih => exact hstep c (d :: l) hc ih

/-- **A pattern that is not plain does not occur in its sample.** -/
theorem not_infix_sample (hx : x ≠ sp.any) {l : List α} (h : ¬ ∀ c ∈ l, Plain sp c) :
    ¬ l <:+: sample sp x l := by
  intro hocc
  obtain ⟨hlength, hplain⟩ := sample_le hx l
  exact h (hplain (hocc.eq_of_length_le hlength).symm)

/-! ## Renamed symbols -/

/-- A map that keeps the special symbols, and makes no other symbol special. -/
structure Keeps (sp : Specials α) (f : α → α) : Prop where
  many : ∀ c, f c = sp.many ↔ c = sp.many
  any : ∀ c, f c = sp.any ↔ c = sp.any
  escape : ∀ c, f c = sp.escape ↔ c = sp.escape

def Item.map (f : α → α) : Item α → Item α
  | lit c => lit (f c)
  | any => any
  | many => many

variable {f : α → α}

omit [DecidableEq α] in
theorem Keeps.map_plain (h : Keeps sp f) (l : List α) :
    (∀ c ∈ l.map f, Plain sp c) ↔ ∀ c ∈ l, Plain sp c := by
  simp only [List.forall_mem_map, Plain, ne_eq, h.many, h.any, h.escape]

theorem Keeps.item (h : Keeps sp f) (c : α) : item sp (f c) = (item sp c).map f := by
  unfold Like.item
  simp only [h.many, h.any]
  split_ifs <;> rfl

theorem Keeps.items (h : Keeps sp f) (l : List α) :
    items sp (l.map f) = (items sp l).map (Item.map f) := by
  induction l using Like.items.induct sp with
  | case1 => rfl
  | case2 c => exact congrArg (fun p => [p]) (h.item c)
  | case3 d l ih =>
    rw [List.map_cons, List.map_cons, (h.escape _).2 rfl, Like.items, if_pos rfl, ih, Like.items,
      if_pos rfl]
    rfl
  | case4 c d l hc ih =>
    rw [List.map_cons, items_cons (mt (h.escape c).1 hc), ih, items_cons hc, h.item]
    rfl

omit [DecidableEq α] in
theorem sampleOf_map (ps : List (Item α)) :
    sampleOf (f x) (ps.map (Item.map f)) = (sampleOf x ps).map f := by
  induction ps with
  | nil => rfl
  | cons p ps ih =>
    cases p with
    | lit c => exact congrArg (f c :: ·) ih
    | any => exact congrArg (f x :: ·) ih
    | many => exact ih

/-- The sample of a renamed pattern. -/
theorem Keeps.sample (h : Keeps sp f) (l : List α) :
    sample sp (f x) (l.map f) = (sample sp x l).map f := by
  have hmany : l.map f ++ [sp.many] = (l ++ [sp.many]).map f := by
    rw [List.map_append, List.map_singleton, (h.many _).2 rfl]
  rw [Like.sample, hmany, h.items, sampleOf_map, Like.sample]

end ChatBackend.Like
