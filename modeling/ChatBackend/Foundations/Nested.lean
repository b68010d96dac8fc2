import Mathlib

/-!
# Nested data

Lists and dictionaries of any depth, and edits of them that go by the position of a value: a state is
carried from the root, and says of the key of an entry whether the entry is dropped, its value is
replaced, or it is kept and edited in a further state. An edit is idempotent (`edit_edit`), and what
it leaves at a path is known from the path (`get_edit`).
-/

namespace ChatBackend

/-- Scalars, lists, and dictionaries with their entries in order. -/
inductive Nested (κ σ : Type) : Type
  | leaf (a : σ)
  | list (xs : List (Nested κ σ))
  | dict (kvs : List (κ × Nested κ σ))

namespace Nested

variable {κ σ τ : Type}

@[elab_as_elim, induction_eliminator]
theorem ind {motive : Nested κ σ → Prop} (leaf : ∀ a, motive (.leaf a))
    (list : ∀ xs, (∀ x ∈ xs, motive x) → motive (.list xs))
    (dict : ∀ kvs, (∀ k x, (k, x) ∈ kvs → motive x) → motive (.dict kvs)) : ∀ v, motive v
  | .leaf a => leaf a
  | .list xs => list xs fun x _ => ind leaf list dict x
  | .dict kvs => dict kvs fun k x _ => ind leaf list dict x
termination_by v => sizeOf v
decreasing_by
  · rename_i hx
    have := List.sizeOf_lt_of_mem hx
    simp only [Nested.list.sizeOf_spec]
    omega
  · rename_i hx
    have := List.sizeOf_lt_of_mem hx
    simp only [Nested.dict.sizeOf_spec, Prod.mk.sizeOf_spec] at *
    omega

/-! ## Edits -/

/-- What becomes of an entry. -/
inductive Action (σ τ : Type) : Type
  | drop
  | put (a : σ)
  | keep (next : τ)

/-- An edit by position: what becomes of an entry of a dictionary, and the state for the items of a
list. -/
structure Edit (κ σ τ : Type) where
  onKey : τ → κ → Action σ τ
  onItem : τ → τ

variable (e : Edit κ σ τ)

mutual

/-- A value that is edited in a state. -/
def edit : τ → Nested κ σ → Nested κ σ
  | _, .leaf a => .leaf a
  | t, .list xs => .list (editItems (e.onItem t) xs)
  | t, .dict kvs => .dict (editEntries t kvs)

def editItems : τ → List (Nested κ σ) → List (Nested κ σ)
  | _, [] => []
  | t, x :: xs => edit t x :: editItems t xs

def editEntries : τ → List (κ × Nested κ σ) → List (κ × Nested κ σ)
  | _, [] => []
  | t, (k, x) :: kvs =>
    match e.onKey t k with
    | .drop => editEntries t kvs
    | .put a => (k, .leaf a) :: editEntries t kvs
    | .keep next => (k, edit next x) :: editEntries t kvs

end

variable {e} {t : τ}

theorem editItems_eq (t : τ) (xs : List (Nested κ σ)) : editItems e t xs = xs.map (edit e t) := by
  induction xs with
  | nil => rw [editItems, List.map_nil]
  | cons x xs ih => rw [editItems, List.map_cons, ih]

/-- The entries of an edited dictionary. -/
theorem mem_editEntries {kvs : List (κ × Nested κ σ)} {k : κ} {y : Nested κ σ} :
    (k, y) ∈ editEntries e t kvs ↔
      ∃ x, (k, x) ∈ kvs ∧
        match e.onKey t k with
        | .drop => False
        | .put a => y = .leaf a
        | .keep next => y = edit e next x := by
  induction kvs with
  | nil => simp [editEntries]
  | cons kv kvs ih =>
    obtain ⟨k', x'⟩ := kv
    have hcons : (∃ x, (k, x) ∈ (k', x') :: kvs ∧
        match e.onKey t k with
        | .drop => False
        | .put a => y = .leaf a
        | .keep next => y = edit e next x) ↔
        (k = k' ∧ match e.onKey t k with
          | .drop => False
          | .put a => y = .leaf a
          | .keep next => y = edit e next x') ∨ (k, y) ∈ editEntries e t kvs := by
      rw [ih]
      constructor
      · rintro ⟨x, hx, hy⟩
        rcases List.mem_cons.1 hx with heq | hx
        · obtain ⟨rfl, rfl⟩ := Prod.mk.inj heq
          exact .inl ⟨rfl, hy⟩
        · exact .inr ⟨x, hx, hy⟩
      · rintro (⟨rfl, hy⟩ | ⟨x, hx, hy⟩)
        · exact ⟨x', .head _, hy⟩
        · exact ⟨x, .tail _ hx, hy⟩
    rw [hcons, editEntries]
    cases haction : e.onKey t k' with
    | drop =>
      refine ⟨.inr, fun h => h.elim ?_ id⟩
      rintro ⟨rfl, hy⟩
      rw [haction] at hy
      exact hy.elim
    | put a =>
      rw [List.mem_cons]
      refine or_congr_left ⟨fun h => ?_, ?_⟩
      · obtain ⟨rfl, rfl⟩ := Prod.mk.inj h
        rw [haction]
        exact ⟨rfl, rfl⟩
      · rintro ⟨rfl, hy⟩
        rw [haction] at hy
        rw [hy]
    | keep next =>
      rw [List.mem_cons]
      refine or_congr_left ⟨fun h => ?_, ?_⟩
      · obtain ⟨rfl, rfl⟩ := Prod.mk.inj h
        rw [haction]
        exact ⟨rfl, rfl⟩
      · rintro ⟨rfl, hy⟩
        rw [haction] at hy
        rw [hy]

/-- Whether an entry is not dropped. -/
def Edit.keeps (e : Edit κ σ τ) (t : τ) (k : κ) : Bool :=
  match e.onKey t k with
  | .drop => false
  | _ => true

/-- The keys of an edited dictionary. -/
theorem keys_editEntries (t : τ) (kvs : List (κ × Nested κ σ)) :
    (editEntries e t kvs).map Prod.fst = (kvs.map Prod.fst).filter (e.keeps t) := by
  induction kvs with
  | nil => rw [editEntries, List.map_nil, List.filter_nil]
  | cons kv kvs ih =>
    obtain ⟨k, x⟩ := kv
    rw [editEntries, List.map_cons, List.filter_cons]
    cases haction : e.onKey t k <;> simp [Edit.keeps, haction] <;> exact ih

/-- **Editing twice is editing once.** -/
theorem edit_edit (t : τ) (v : Nested κ σ) : edit e t (edit e t v) = edit e t v := by
  induction v generalizing t with
  | leaf a => rw [edit, edit]
  | list xs ih =>
    rw [edit, edit, editItems_eq, editItems_eq, List.map_map]
    exact congrArg _ (List.map_congr_left fun x hx => ih x hx _)
  | dict kvs ih =>
    rw [edit, edit]
    refine congrArg _ ?_
    induction kvs with
    | nil => rw [editEntries, editEntries]
    | cons kv kvs ihs =>
      obtain ⟨k, x⟩ := kv
      have hrest := ihs fun k x hx => ih k x (.tail _ hx)
      rw [editEntries]
      cases haction : e.onKey t k with
      | drop => exact hrest
      | put a => simp only [editEntries, haction, hrest]
      | keep next => simp only [editEntries, haction, hrest, ih k x (.head _) next]

/-- In a state that keeps everything, nothing changes. -/
theorem edit_eq_self (hkey : ∀ k, e.onKey t k = .keep t) (hitem : e.onItem t = t) (v : Nested κ σ) :
    edit e t v = v := by
  induction v with
  | leaf a => rw [edit]
  | list xs ih =>
    rw [edit, editItems_eq, hitem]
    exact congrArg _ ((List.map_congr_left ih).trans (List.map_id _))
  | dict kvs ih =>
    rw [edit]
    refine congrArg _ ?_
    induction kvs with
    | nil => rw [editEntries]
    | cons kv kvs ihs =>
      obtain ⟨k, x⟩ := kv
      simp only [editEntries, hkey, ih k x (.head _), ihs fun k x hx => ih k x (.tail _ hx)]

/-! ## Paths -/

/-- A step into a value. -/
inductive Step (κ : Type) : Type
  | key (k : κ)
  | index (i : ℕ)

/-- What a path leads to. -/
inductive Fate (σ τ : Type) : Type
  | gone
  | put (a : σ)
  | kept (t : τ)

/-- What becomes of the value at a path. -/
def walk (e : Edit κ σ τ) : τ → List (Step κ) → Fate σ τ
  | t, [] => .kept t
  | t, .key k :: p =>
    match e.onKey t k with
    | .drop => .gone
    | .put a => if p.isEmpty then .put a else .gone
    | .keep next => walk e next p
  | t, .index _ :: p => walk e (e.onItem t) p

/-- The kind of a value: a scalar, a list, or a dictionary. -/
inductive Shape (σ : Type) : Type
  | leaf (a : σ)
  | list
  | dict

def shape : Nested κ σ → Shape σ
  | .leaf a => .leaf a
  | .list _ => .list
  | .dict _ => .dict

@[simp] theorem shape_edit (t : τ) (v : Nested κ σ) : (edit e t v).shape = v.shape := by
  cases v <;> rw [edit] <;> rfl

variable [DecidableEq κ]

/-- The value at a path. -/
def get : Nested κ σ → List (Step κ) → Option (Nested κ σ)
  | v, [] => some v
  | .dict kvs, .key k :: p => (kvs.lookup k).bind (get · p)
  | .list xs, .index i :: p => xs[i]?.bind (get · p)
  | _, _ :: _ => none

theorem lookup_editEntries (t : τ) (kvs : List (κ × Nested κ σ)) (k : κ) :
    (editEntries e t kvs).lookup k =
      match e.onKey t k with
      | .drop => none
      | .put a => (kvs.lookup k).map fun _ => .leaf a
      | .keep next => (kvs.lookup k).map (edit e next) := by
  induction kvs with
  | nil =>
    rw [editEntries, List.lookup_nil]
    cases e.onKey t k <;> rfl
  | cons kv kvs ih =>
    obtain ⟨k', x⟩ := kv
    rw [editEntries]
    by_cases heq : k = k'
    · subst heq
      cases haction : e.onKey t k with
      | drop =>
        rw [haction] at ih
        exact ih
      | put a => simp
      | keep next => simp
    · have hne : (k == k') = false := beq_false_of_ne heq
      rw [List.lookup_cons, hne]
      cases e.onKey t k' with
      | drop => exact ih
      | put a =>
        rw [List.lookup_cons, hne]
        exact ih
      | keep next =>
        rw [List.lookup_cons, hne]
        exact ih

/-- The value at a path, given what becomes of it. -/
def Fate.apply (e : Edit κ σ τ) : Fate σ τ → Option (Nested κ σ) → Option (Nested κ σ)
  | .gone, _ => none
  | .put a, x => x.map fun _ => .leaf a
  | .kept next, x => x.map (edit e next)

omit [DecidableEq κ] in
@[simp] theorem Fate.apply_none (f : Fate σ τ) : f.apply e none = none := by
  cases f <;> rfl

/-- **What an edit leaves at a path.** -/
theorem get_edit (t : τ) (v : Nested κ σ) (p : List (Step κ)) :
    (edit e t v).get p = (walk e t p).apply e (v.get p) := by
  induction p generalizing t v with
  | nil => simp only [get, walk, Fate.apply, Option.map_some]
  | cons s p ih =>
    cases s with
    | key k =>
      cases v with
      | leaf a => simp only [edit, get, Fate.apply_none]
      | list xs => simp only [edit, get, Fate.apply_none]
      | dict kvs =>
        rw [edit, walk, get, get, lookup_editEntries]
        cases e.onKey t k with
        | drop => rfl
        | put b =>
          cases kvs.lookup k with
          | none => simp
          | some x => cases p <;> simp [get, Fate.apply]
        | keep next =>
          cases kvs.lookup k with
          | none => simp
          | some x => exact ih next x
    | index i =>
      cases v with
      | leaf a => simp only [edit, get, Fate.apply_none]
      | dict kvs => simp only [edit, get, Fate.apply_none]
      | list xs =>
        rw [edit, walk, get, get, editItems_eq, List.getElem?_map]
        cases xs[i]? with
        | none => simp
        | some x => exact ih _ x

end Nested

end ChatBackend
