import Mathlib

/-!
# Keyset pagination

Rows with distinct keys are listed from the largest key down, in pages. A page has the first `limit`
rows that come after a cursor; its next cursor, when there are more rows, is the key of its last one.
Following the cursors ends, and the pages are the rows in order, all full but the last
(`exists_follows_rest`). Cursors may be handed out as texts that are read back (`paginates`).
-/

namespace ChatBackend.Keyset

variable {α β κ γ ε : Type}

/-- A page and the cursor of the next one. -/
structure Page (α γ : Type) where
  rows : List α
  next : Option γ

/-- Following the next cursors from a cursor gives these pages. -/
inductive Follows (fetch : Option γ → Except ε (Page α γ)) : Option γ → List (List α) → Prop
  | last {c : Option γ} {rows : List α} (h : fetch c = .ok ⟨rows, none⟩) : Follows fetch c [rows]
  | more {c : Option γ} {c' : γ} {rows : List α} {pages : List (List α)}
      (h : fetch c = .ok ⟨rows, some c'⟩) (hrest : Follows fetch (some c') pages) :
      Follows fetch c (rows :: pages)

/-- There is one way to follow the cursors. -/
theorem Follows.unique {fetch : Option γ → Except ε (Page α γ)} {c : Option γ}
    {pages pages' : List (List α)} (h : Follows fetch c pages) (h' : Follows fetch c pages') :
    pages' = pages := by
  induction h generalizing pages' with
  | last h =>
    cases h' with
    | last h' => cases h.symm.trans h'; rfl
    | more h' _ => cases h.symm.trans h'
  | more h _ ih =>
    cases h' with
    | last h' => cases h.symm.trans h'
    | more h' hrest' =>
      cases h.symm.trans h'
      rw [ih hrest']

/-- Cursors that are read back can be followed instead of the keys, and items can be shown instead of
the rows. -/
theorem Follows.encoded {item : α → β} {encode : κ → γ} {byKey : Option κ → Except ε (Page α κ)}
    {fetch : Option γ → Except ε (Page β γ)}
    (hfetch : ∀ c rows next, byKey c = .ok ⟨rows, next⟩ →
      fetch (c.map encode) = .ok ⟨rows.map item, next.map encode⟩)
    {c : Option κ} {pages : List (List α)} (h : Follows byKey c pages) :
    Follows fetch (c.map encode) (pages.map (List.map item)) := by
  induction h with
  | last h => exact .last (hfetch _ _ _ h)
  | more h _ ih => exact .more (hfetch _ _ _ h) ih

/-- The page of some rows of which one more than `limit` was asked for. -/
def Page.of (limit : ℕ) (fetched : List α) (item : α → β) (cursor : α → γ) : Page β γ :=
  let pageRows := fetched.take limit
  ⟨pageRows.map item, if limit < fetched.length then pageRows.getLast?.map cursor else none⟩

/-- Following the cursors from the first page ends, in one way; it shows every item once, in order, and
every page but the last is full. -/
def Paginates (fetch : Option γ → Except ε (Page β γ)) (limit : ℕ) (items : List β)
    (before : β → β → Prop) : Prop :=
  ∃ pages, Follows fetch none pages ∧ (∀ pages', Follows fetch none pages' → pages' = pages) ∧
    pages.flatten.Perm items ∧ pages.flatten.Pairwise before ∧ ∀ p ∈ pages.dropLast, p.length = limit

/-- The shown items are determined up to their order. -/
theorem Paginates.iff_perm {fetch : Option γ → Except ε (Page β γ)} {limit : ℕ}
    {items items' : List β} {before : β → β → Prop} (h : Paginates fetch limit items before) :
    Paginates fetch limit items' before ↔ items.Perm items' := by
  obtain ⟨pages, hfollows, hunique, hperm, hrest⟩ := h
  constructor
  · rintro ⟨pages', hfollows', -, hperm', -⟩
    cases hunique pages' hfollows'
    exact hperm.symm.trans hperm'
  · exact fun hitems => ⟨pages, hfollows, hunique, hperm.trans hitems, hrest⟩

/-- Two selections of rows with different ids show the same items when they are the same. -/
theorem perm_filter_iff {ι : Type} {rows : List α} {id : β → ι} {item : α → β} {p q : α → Bool}
    (hids : (rows.map fun a => id (item a)).Nodup) :
    ((rows.filter p).map item).Perm ((rows.filter q).map item) ↔ ∀ a ∈ rows, p a = q a := by
  refine ⟨fun h a ha => ?_, fun h => by rw [List.filter_congr h]⟩
  have hmem : ∀ r : α → Bool, id (item a) ∈ ((rows.filter r).map item).map id ↔ r a = true := by
    intro r
    rw [List.map_map, List.mem_map]
    constructor
    · rintro ⟨b, hb, heq⟩
      obtain ⟨hb, hr⟩ := List.mem_filter.1 hb
      rwa [← List.inj_on_of_nodup_map hids hb ha heq]
    · exact fun hr => ⟨a, List.mem_filter.2 ⟨ha, hr⟩, rfl⟩
  rw [Bool.eq_iff_iff, ← hmem p, ← hmem q]
  exact (h.map id).mem_iff

/-! ## Pages of rows -/

variable [LinearOrder κ] (key : α → κ)

/-- `ORDER BY key DESC`. -/
def sorted (rows : List α) : List α := rows.insertionSort fun a b => key b ≤ key a

/-- The rows after a cursor. -/
def after : Option κ → List α → List α
  | none, rows => rows
  | some k, rows => rows.filter fun a => key a < k

/-- A condition that compares the key with that of a cursor. -/
theorem filter_isAfter {key : α → κ} {ofKey : κ → γ} {isAfter : γ → α → Bool}
    (h : ∀ a k, isAfter (ofKey k) a = true ↔ key a < k) (cursor : Option κ) (rows : List α) :
    (rows.filter fun a => (cursor.map ofKey).all (isAfter · a)) = after key cursor rows := by
  cases cursor with
  | none => exact List.filter_eq_self.2 fun _ _ => rfl
  | some k => exact List.filter_congr fun a _ => Bool.eq_iff_iff.2 ((h a k).trans decide_eq_true_iff.symm)

/-- The rows of a page after a cursor, and one more. -/
def fetched (limit : ℕ) (rows : List α) (cursor : Option κ) : List α :=
  (sorted key (after key cursor rows)).take (limit + 1)

/-- The page after a cursor. -/
def page (limit : ℕ) (rows : List α) (cursor : Option κ) : Page α κ :=
  .of limit (fetched key limit rows cursor) id key

variable {key} {rows : List α} {limit : ℕ}

theorem sorted_perm (rows : List α) : (sorted key rows).Perm rows := List.perm_insertionSort _ _

theorem sorted_pairwise (rows : List α) : (sorted key rows).Pairwise fun a b => key b ≤ key a := by
  have : Std.Total fun a b : α => key b ≤ key a := ⟨fun a b => le_total (key b) (key a)⟩
  have : IsTrans α fun a b : α => key b ≤ key a := ⟨fun a b c hab hbc => le_trans hbc hab⟩
  exact List.pairwise_insertionSort _ _

/-- The rows after a cursor, in order. -/
def rest (key : α → κ) (rows : List α) (cursor : Option κ) : List α := after key cursor (sorted key rows)

/-- Selecting and sorting, in either order. -/
theorem sorted_after (hrows : (rows.map key).Nodup) (cursor : Option κ) :
    sorted key (after key cursor rows) = rest key rows cursor := by
  cases cursor with
  | none => rfl
  | some k =>
    have hinj : ∀ a ∈ rows, ∀ b ∈ rows, key a = key b → a = b :=
      fun a ha b hb => List.inj_on_of_nodup_map hrows ha hb
    have hmem : ∀ a ∈ sorted key (after key (some k) rows), a ∈ rows := fun a ha =>
      (List.mem_filter.1 ((sorted_perm _).mem_iff.1 ha)).1
    have hpair : (rest key rows (some k)).Pairwise fun a b => key b ≤ key a :=
      (sorted_pairwise rows).filter _
    refine List.Perm.eq_of_pairwise ?_ (sorted_pairwise _) hpair ?_
    · intro a b ha hb hab hba
      have hb : b ∈ rows := (sorted_perm rows).mem_iff.1 (List.mem_filter.1 hb).1
      exact hinj a (hmem a ha) b hb (le_antisymm hba hab)
    · exact (sorted_perm _).trans ((sorted_perm rows).symm.filter _)

/-- The keys go down. -/
theorem rest_pairwise (hrows : (rows.map key).Nodup) (cursor : Option κ) :
    (rest key rows cursor).Pairwise fun a b => key b < key a := by
  have hsorted : (sorted key rows).Pairwise fun a b => key b < key a := by
    have hnodup : ((sorted key rows).map key).Nodup := ((sorted_perm rows).map key).nodup_iff.2 hrows
    have hne : (sorted key rows).Pairwise fun a b => key a ≠ key b := List.pairwise_map.1 hnodup
    exact (List.Pairwise.and (sorted_pairwise rows) hne).imp fun h => lt_of_le_of_ne h.1 h.2.symm
  cases cursor with
  | none => exact hsorted
  | some k => exact hsorted.filter _

/-- The rows after one of the rows. -/
theorem rest_some {cursor : Option κ} {A B : List α} {x : α} (hrows : (rows.map key).Nodup)
    (h : rest key rows cursor = A ++ x :: B) : rest key rows (some (key x)) = B := by
  have hx : x ∈ rest key rows cursor := by rw [h]; exact List.mem_append_right _ (.head _)
  have hfilter : rest key rows (some (key x)) =
      (rest key rows cursor).filter fun a => key a < key x := by
    cases cursor with
    | none => rfl
    | some k =>
      have hlt : key x < k := by simpa using (List.mem_filter.1 hx).2
      refine Eq.trans (List.filter_congr fun a _ => ?_) (List.filter_filter).symm
      rw [Bool.eq_iff_iff]
      simpa using fun ha : key a < key x => ha.trans hlt
  have hpair := rest_pairwise hrows cursor
  rw [h, List.pairwise_append] at hpair
  obtain ⟨-, hB, hAB⟩ := hpair
  rw [hfilter, h, List.filter_append, List.filter_cons_of_neg (by simp)]
  have hA : (A.filter fun a => key a < key x) = [] :=
    List.filter_eq_nil_iff.2 fun a ha => by simpa using (hAB a ha x (.head _)).le
  have hB : (B.filter fun a => key a < key x) = B :=
    List.filter_eq_self.2 fun b hb => by simpa using (List.pairwise_cons.1 hB).1 b hb
  rw [hA, hB, List.nil_append]

theorem page_eq (limit : ℕ) (hrows : (rows.map key).Nodup) (cursor : Option κ) :
    page key limit rows cursor = ⟨(rest key rows cursor).take limit,
      if limit < (rest key rows cursor).length then ((rest key rows cursor).take limit).getLast?.map key
      else none⟩ := by
  have htake : ((rest key rows cursor).take (limit + 1)).take limit =
      (rest key rows cursor).take limit := by
    rw [List.take_take, Nat.min_eq_left (Nat.le_succ limit)]
  have hlt : limit < min (limit + 1) (rest key rows cursor).length ↔
      limit < (rest key rows cursor).length := by omega
  simp only [page, Page.of, fetched, sorted_after hrows, htake, List.length_take, hlt, List.map_id_fun, id]

/-- Following the cursors ends; the pages are the rows in order, and all but the last are full. -/
theorem exists_follows_rest (hlimit : 0 < limit) (hrows : (rows.map key).Nodup) (cursor : Option κ) :
    ∃ pages, Follows (fun c => (.ok (page key limit rows c) : Except ε (Page α κ))) cursor pages ∧
      pages.flatten = rest key rows cursor ∧ ∀ p ∈ pages.dropLast, p.length = limit := by
  -- on the number of rows that are left
  induction hn : (rest key rows cursor).length using Nat.strong_induction_on generalizing cursor with
  | h n ih =>
    have hpage := page_eq limit hrows cursor
    by_cases hmore : limit < (rest key rows cursor).length
    · rw [if_pos hmore] at hpage
      have hne : (rest key rows cursor).take limit ≠ [] := by
        rw [Ne, List.take_eq_nil_iff]
        rintro (rfl | h)
        · exact lt_irrefl 0 hlimit
        · rw [h] at hmore
          exact Nat.not_lt_zero _ hmore
      obtain ⟨A, x, hA⟩ := List.eq_nil_or_concat _ |>.resolve_left hne
      have hsplit : rest key rows cursor = A ++ x :: (rest key rows cursor).drop limit := by
        conv_lhs => rw [← List.take_append_drop limit (rest key rows cursor), hA]
        simp
      have hdrop := rest_some hrows hsplit
      rw [hA, List.concat_eq_append, List.getLast?_concat, Option.map_some] at hpage
      have hshorter : (rest key rows (some (key x))).length < n := by
        rw [hdrop, List.length_drop, hn]
        omega
      obtain ⟨pages, hfollows, hflat, hfull⟩ := ih _ hshorter (some (key x)) rfl
      refine ⟨_, .more (congrArg Except.ok hpage) hfollows, ?_, ?_⟩
      · rw [List.flatten_cons, hflat, hdrop, List.append_assoc, List.singleton_append]
        exact hsplit.symm
      · have hpages : pages ≠ [] := by
          rintro rfl
          cases hfollows
        rw [List.dropLast_cons_of_ne_nil hpages]
        refine List.forall_mem_cons.2 ⟨?_, hfull⟩
        rw [← List.concat_eq_append, ← hA, List.length_take, Nat.min_eq_left hmore.le]
    · rw [if_neg hmore] at hpage
      refine ⟨_, .last (congrArg Except.ok hpage), ?_, nofun⟩
      rw [List.flatten_singleton, List.take_of_length_le (not_lt.1 hmore)]

/-- **Keyset pagination** with cursors as texts: the items of the rows, in order. -/
theorem paginates {item : α → β} {encode : κ → γ} {fetch : Option γ → Except ε (Page β γ)}
    {before : β → β → Prop} (hlimit : 0 < limit) (hrows : (rows.map key).Nodup)
    (hfetch : ∀ c, fetch (c.map encode) =
      .ok (.of limit (fetched key limit rows c) item fun a => encode (key a)))
    (hbefore : ∀ a b, key b < key a → before (item a) (item b)) :
    Paginates fetch limit (rows.map item) before := by
  obtain ⟨pages, hfollows, hflat, hfull⟩ :=
    exists_follows_rest (ε := ε) hlimit hrows none
  have hfollows : Follows fetch ((none : Option κ).map encode) (pages.map (List.map item)) := by
    refine hfollows.encoded fun c rows next h => ?_
    have hpage := Except.ok.inj h
    rw [hfetch, Page.of, ← (Page.mk.inj hpage).1, ← (Page.mk.inj hpage).2]
    simp only [List.map_id_fun, id, Except.ok.injEq, Page.mk.injEq, true_and]
    split_ifs
    · exact (Option.map_map _ _ _).symm
    · rfl
  have hrest : rest key rows none = sorted key rows := rfl
  refine ⟨_, hfollows, fun pages' h' => hfollows.unique h', ?_, ?_, fun p hp => ?_⟩
  · rw [← List.map_flatten, hflat, hrest]
    exact (sorted_perm rows).map item
  · rw [← List.map_flatten, hflat]
    exact List.pairwise_map.2 ((rest_pairwise hrows none).imp (hbefore _ _))
  · rw [← List.map_dropLast] at hp
    obtain ⟨q, hq, rfl⟩ := List.mem_map.1 hp
    rw [List.length_map]
    exact hfull q hq

end ChatBackend.Keyset
