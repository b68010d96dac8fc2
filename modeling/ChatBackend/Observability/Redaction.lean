import ChatBackend.Foundations.Nested

/-!
# The redaction of logs and audits

`redact` hides the values of sensitive keys and the data of attachments. Below the key `attachments` it
leaves its own rule for another one, that does not look at sensitive keys and reaches the items of one
list only. So it does what it is meant to do exactly where no such key and no other attachment is there
(`redaction_iff`).
-/

namespace ChatBackend.Observability

open Nested

/-- A key of a dictionary: a text, or any other value. -/
inductive DictKey (κ : Type) : Type
  | str (s : String)
  | other (a : κ)

/-- A scalar: a text, or any other value. -/
inductive Scalar (σ : Type) : Type
  | str (s : String)
  | other (a : σ)

abbrev Value (κ σ : Type) : Type := Nested (DictKey κ) (Scalar σ)

/-- `REDACTED`. -/
def redactedText {σ : Type} : Scalar σ := .str "***REDACTED***"

/-- `_DENY_SUBSTRINGS`. -/
def denySubstrings : List String := ["key", "token", "secret", "password", "authorization", "credential"]

/-- `_DENY_EXACT`. -/
def denyExact : List String :=
  ["apikey", "transaction", "jws", "receipt", "dek", "nonce", "encrypted_key", "x-admin-token",
    "x_admin_token"]

/- The function `str.lower`. -/
variable (lower : String → String) {κ σ : Type}

/-- `_is_sensitive_key`. -/
def isSensitiveKey (key : String) : Bool :=
  let lowered := lower key
  if "status".toList <:+ lowered.toList then false
  else if lowered ∈ denyExact then true
  else denySubstrings.any fun sub => decide (sub.toList <:+: lowered.toList)

namespace DictKey

/-- `isinstance(k, str) and _is_sensitive_key(k)`. -/
def isSensitive : DictKey κ → Bool
  | str s => isSensitiveKey lower s
  | other _ => false

/-- `isinstance(k, str) and k.lower() == "attachments"`. -/
def isAttachments : DictKey κ → Bool
  | str s => lower s = "attachments"
  | other _ => false

/-- `k == "data"`. -/
def isData : DictKey κ → Bool
  | str s => s = "data"
  | other _ => false

end DictKey

mutual

/-- `redact`. -/
def redact : Value κ σ → Value κ σ
  | .leaf a => .leaf a
  | .list xs => .list (redactList xs)
  | .dict kvs => .dict (redactDict kvs)

def redactList : List (Value κ σ) → List (Value κ σ)
  | [] => []
  | x :: xs => redact x :: redactList xs

/-- The loop over a dictionary. -/
def redactDict : List (DictKey κ × Value κ σ) → List (DictKey κ × Value κ σ)
  | [] => []
  | (k, v) :: kvs =>
    (k, if k.isSensitive lower then .leaf redactedText
      else if k.isAttachments lower then redactAttachments v
      else redact v) :: redactDict kvs

/-- `_redact_attachments`; what is no list is redacted as usual. -/
def redactAttachments : Value κ σ → Value κ σ
  | .list xs => .list (redactItems xs)
  | .dict kvs => .dict (redactDict kvs)
  | .leaf a => .leaf a

def redactItems : List (Value κ σ) → List (Value κ σ)
  | [] => []
  | x :: xs => redactItem x :: redactItems xs

/-- An item of the list; what is no dictionary is redacted as usual. -/
def redactItem : Value κ σ → Value κ σ
  | .dict kvs => .dict (redactFields kvs)
  | .list xs => .list (redactList xs)
  | .leaf a => .leaf a

def redactFields : List (DictKey κ × Value κ σ) → List (DictKey κ × Value κ σ)
  | [] => []
  | (k, v) :: kvs => (k, if k.isData then .leaf redactedText else redact v) :: redactFields kvs

end

/-! ## What is to be hidden -/

/-- Where a value is: in the value of a key `attachments`, or elsewhere. -/
inductive Zone : Type
  | plain
  | attachments
  deriving DecidableEq

/-- The zone of the value of a key. -/
def DictKey.zone (k : DictKey κ) : Zone := if k.isAttachments lower then .attachments else .plain

/-- The keys whose values are to be hidden: the sensitive ones, and the data of an attachment. -/
def Zone.hides (z : Zone) (k : DictKey κ) : Bool :=
  k.isSensitive lower || (z = .attachments && k.isData)

/-- Everything that is to be hidden is replaced. -/
def hidingEdit (κ σ : Type) : Edit (DictKey κ) (Scalar σ) Zone where
  onKey z k := if z.hides lower k then .put redactedText else .keep (k.zone lower)
  onItem z := z

/-- A value with everything hidden that is to be hidden. -/
def hide (v : Value κ σ) : Value κ σ := edit (hidingEdit lower κ σ) .plain v

/-- A value is stored under a key, at any depth. -/
inductive Stores : Value κ σ → DictKey κ → Value κ σ → Prop
  | here {kvs : List (DictKey κ × Value κ σ)} {k : DictKey κ} {x : Value κ σ} (h : (k, x) ∈ kvs) :
      Stores (.dict kvs) k x
  | dict {kvs : List (DictKey κ × Value κ σ)} {k k' : DictKey κ} {u x : Value κ σ}
      (h : (k', u) ∈ kvs) (h' : Stores u k x) : Stores (.dict kvs) k x
  | list {xs : List (Value κ σ)} {k : DictKey κ} {u x : Value κ σ} (h : u ∈ xs)
      (h' : Stores u k x) : Stores (.list xs) k x

/-- An attachment of a value of `attachments`: a dictionary in its lists, or that value itself. -/
inductive Attachment : Value κ σ → List (DictKey κ × Value κ σ) → Prop
  | self (kvs : List (DictKey κ × Value κ σ)) : Attachment (.dict kvs) kvs
  | list {xs : List (Value κ σ)} {x : Value κ σ} {kvs : List (DictKey κ × Value κ σ)} (h : x ∈ xs)
      (h' : Attachment x kvs) : Attachment (.list xs) kvs

/-- The data in the attachments of a value is hidden. -/
def DataHidden (u : Value κ σ) : Prop :=
  ∀ kvs, Attachment u kvs → ∀ k x, (k, x) ∈ kvs → k.isData = true → x = .leaf redactedText

/-- `w` is what a redaction of `v` should be: no value of a sensitive key is left and no data of an
attachment, and where nothing is to be hidden it is as `v` is. -/
structure Redacted (v w : Value κ σ) : Prop where
  secrets : ∀ k x, Stores w k x → k.isSensitive lower = true → x = .leaf redactedText
  data : ∀ k u, Stores w k u → k.isAttachments lower = true → DataHidden u
  others : hide lower w = hide lower v

section Hidden

variable {lower} {v w : Value κ σ} {z : Zone} {k : DictKey κ} {u : Value κ σ}

/-- A value that is stored in what has been hidden. -/
theorem stores_edit (h : Stores (edit (hidingEdit lower κ σ) z v) k u) :
    u = .leaf redactedText ∨
      k.isSensitive lower = false ∧ ∃ x, u = edit (hidingEdit lower κ σ) (k.zone lower) x := by
  induction v using Nested.ind generalizing z with
  | leaf a =>
    rw [edit] at h
    cases h
  | list xs ih =>
    rw [edit, editItems_eq] at h
    cases h with
    | list hu h' =>
      obtain ⟨x, hx, rfl⟩ := List.mem_map.1 hu
      exact ih x hx h'
  | dict kvs ih =>
    rw [edit] at h
    have hentry : ∀ {k' y}, (k', y) ∈ editEntries (hidingEdit lower κ σ) z kvs →
        y = .leaf redactedText ∨ k'.isSensitive lower = false ∧
          ∃ x, (k', x) ∈ kvs ∧ y = edit (hidingEdit lower κ σ) (k'.zone lower) x := by
      intro k' y hy
      obtain ⟨x, hx, hy⟩ := mem_editEntries.1 hy
      by_cases hhides : z.hides lower k' = true
      · rw [show (hidingEdit lower κ σ).onKey z k' = .put redactedText from if_pos hhides] at hy
        exact .inl hy
      · rw [show (hidingEdit lower κ σ).onKey z k' = .keep (k'.zone lower) from if_neg hhides] at hy
        refine .inr ⟨?_, x, hx, hy⟩
        simp only [Zone.hides, Bool.or_eq_true, not_or] at hhides
        simpa using hhides.1
    cases h with
    | here hy =>
      rcases hentry hy with hu | ⟨hk, x, -, hu⟩
      · exact .inl hu
      · exact .inr ⟨hk, x, hu⟩
    | dict hy h' =>
      rcases hentry hy with rfl | ⟨-, x, hx, rfl⟩
      · cases h'
      · exact ih _ x hx h'

theorem dataHidden_edit (v : Value κ σ) : DataHidden (edit (hidingEdit lower κ σ) .attachments v) := by
  intro kvs hatt
  induction v using Nested.ind with
  | leaf a =>
    rw [edit] at hatt
    cases hatt
  | list xs ih =>
    rw [edit, editItems_eq] at hatt
    cases hatt with
    | list hy h' =>
      obtain ⟨x, hx, rfl⟩ := List.mem_map.1 hy
      exact ih x hx h'
  | dict kvs' ih =>
    rw [edit] at hatt
    cases hatt
    intro k y hy hk
    obtain ⟨x, hx, hy⟩ := mem_editEntries.1 hy
    have hhides : Zone.attachments.hides lower k = true := by simp [Zone.hides, hk]
    rw [show (hidingEdit lower κ σ).onKey .attachments k = .put redactedText from if_pos hhides] at hy
    exact hy

/-- Where everything is hidden already, nothing changes. -/
theorem edit_hidden_eq_self
    (hsecrets : ∀ k x, Stores w k x → k.isSensitive lower = true → x = .leaf redactedText)
    (hdata : ∀ k u, Stores w k u → k.isAttachments lower = true → DataHidden u)
    (hz : z = .attachments → DataHidden w) : edit (hidingEdit lower κ σ) z w = w := by
  induction w using Nested.ind generalizing z with
  | leaf a => rw [edit]
  | list xs ih =>
    rw [edit, editItems_eq]
    refine congrArg _ ((List.map_congr_left fun x hx => ?_).trans (List.map_id _))
    exact ih x hx (fun k u h => hsecrets k u (.list hx h)) (fun k u h => hdata k u (.list hx h))
      fun hzone kvs hkvs => hz hzone kvs (.list hx hkvs)
  | dict kvs ih =>
    have hentry : ∀ k x, (k, x) ∈ kvs →
        (z.hides lower k = true → x = .leaf redactedText) ∧
          edit (hidingEdit lower κ σ) (k.zone lower) x = x := by
      intro k x hx
      refine ⟨fun hhides => ?_, ih k x hx (fun k' u h => hsecrets k' u (.dict hx h))
        (fun k' u h => hdata k' u (.dict hx h)) fun hzone => ?_⟩
      · simp only [Zone.hides, Bool.or_eq_true, Bool.and_eq_true, decide_eq_true_eq] at hhides
        rcases hhides with hk | ⟨hzone, hk⟩
        · exact hsecrets k x (.here hx) hk
        · exact hz hzone kvs (.self kvs) k x hx hk
      · refine hdata k x (.here hx) ?_
        by_contra hnot
        rw [DictKey.zone, if_neg hnot] at hzone
        cases hzone
    rw [edit]
    refine congrArg _ ?_
    clear ih hsecrets hdata hz
    induction kvs with
    | nil => rw [editEntries]
    | cons kv kvs ihs =>
      obtain ⟨k, x⟩ := kv
      obtain ⟨hput, hkeep⟩ := hentry k x (.head _)
      rw [editEntries, ihs fun k x hx => hentry k x (.tail _ hx)]
      by_cases hhides : z.hides lower k = true
      · rw [show (hidingEdit lower κ σ).onKey z k = .put redactedText from if_pos hhides, hput hhides]
      · rw [show (hidingEdit lower κ σ).onKey z k = .keep (k.zone lower) from if_neg hhides]
        simp only [hkeep]

/-- There is one redaction of a value. -/
theorem redacted_iff : Redacted lower v w ↔ w = hide lower v := by
  constructor
  · intro h
    have hself : edit (hidingEdit lower κ σ) .plain w = w :=
      edit_hidden_eq_self h.secrets h.data nofun
    exact hself.symm.trans h.others
  · rintro rfl
    refine ⟨fun k x hx hk => ?_, fun k u hu hk => ?_, edit_edit _ _⟩
    · rcases stores_edit hx with hx | ⟨hnot, -⟩
      · exact hx
      · rw [hk] at hnot
        cases hnot
    · rcases stores_edit hu with rfl | ⟨-, x, rfl⟩
      · intro kvs hkvs
        cases hkvs
      · rw [DictKey.zone, if_pos hk]
        exact dataHidden_edit x

end Hidden

/-! ## What is hidden -/

/-- How a value is redacted: as usual, as the value of `attachments`, or as an item of that list; and
within attachments again as usual. -/
inductive Place : Type
  | plain
  | attachments
  | item
  | nested
  deriving DecidableEq

namespace Place

def zone : Place → Zone
  | plain => .plain
  | _ => .attachments

/-- The keys whose values are replaced. -/
def replaces (p : Place) (k : DictKey κ) : Bool :=
  if p = item then k.isData else k.isSensitive lower

/-- The place of the value of a key that is not replaced. -/
def next (p : Place) (k : DictKey κ) : Place :=
  if k.isAttachments lower then (if p = item then nested else attachments) else plain

/-- The place of the items of a list. -/
def ofItems : Place → Place
  | plain => plain
  | attachments => item
  | _ => nested

/-- The redaction at a place. -/
def redact : Place → Value κ σ → Value κ σ
  | attachments => Observability.redactAttachments lower
  | item => Observability.redactItem lower
  | _ => Observability.redact lower

end Place

/-- What is to be hidden in a value is replaced by its redaction: at the places where a key is not
looked at, no value is stored under it, or one that reads as redacted. -/
inductive Covered : Place → Value κ σ → Prop
  | leaf (p : Place) (a : Scalar σ) : Covered p (.leaf a)
  | list {p : Place} {xs : List (Value κ σ)} (h : ∀ x ∈ xs, Covered p.ofItems x) :
      Covered p (.list xs)
  | dict {p : Place} {kvs : List (DictKey κ × Value κ σ)}
      (missed : ∀ k x, (k, x) ∈ kvs → p.zone.hides lower k = true → p.replaces lower k = false →
        x = .leaf redactedText)
      (below : ∀ k x, (k, x) ∈ kvs → p.zone.hides lower k = false → Covered (p.next lower k) x) :
      Covered p (.dict kvs)

section Covered

variable {lower} {v : Value κ σ}

theorem redactList_eq (xs : List (Value κ σ)) : redactList lower xs = xs.map (redact lower) := by
  induction xs with
  | nil => rw [redactList, List.map_nil]
  | cons x xs ih => rw [redactList, List.map_cons, ih]

theorem redactItems_eq (xs : List (Value κ σ)) : redactItems lower xs = xs.map (redactItem lower) := by
  induction xs with
  | nil => rw [redactItems, List.map_nil]
  | cons x xs ih => rw [redactItems, List.map_cons, ih]

/-- The redaction, by places. -/
def redactingEdit (lower : String → String) (κ σ : Type) : Edit (DictKey κ) (Scalar σ) Place where
  onKey p k := if p.replaces lower k then .put redactedText else .keep (p.next lower k)
  onItem := Place.ofItems

/-- One entry of a dictionary at a place other than an item. -/
theorem redactDict_eq {p : Place} (hp : p ≠ .item) {kvs : List (DictKey κ × Value κ σ)}
    (h : ∀ k x, (k, x) ∈ kvs → ∀ q : Place, q.redact lower x = edit (redactingEdit lower κ σ) q x) :
    redactDict lower kvs = editEntries (redactingEdit lower κ σ) p kvs := by
  induction kvs with
  | nil => rw [redactDict, editEntries]
  | cons kv kvs ih =>
    obtain ⟨k, x⟩ := kv
    rw [redactDict, editEntries, ih fun k x hx => h k x (.tail _ hx)]
    have hreplaces : p.replaces lower k = k.isSensitive lower := if_neg hp
    by_cases hk : k.isSensitive lower = true
    · rw [if_pos hk, show (redactingEdit lower κ σ).onKey p k = .put redactedText from
        if_pos (hreplaces.trans hk)]
    · rw [if_neg hk, show (redactingEdit lower κ σ).onKey p k = .keep (p.next lower k) from
        if_neg (hreplaces ▸ hk)]
      simp only [← h k x (.head _), Place.next, if_neg hp]
      split_ifs <;> rfl

theorem redactFields_eq {kvs : List (DictKey κ × Value κ σ)}
    (h : ∀ k x, (k, x) ∈ kvs → ∀ q : Place, q.redact lower x = edit (redactingEdit lower κ σ) q x) :
    redactFields lower kvs = editEntries (redactingEdit lower κ σ) .item kvs := by
  induction kvs with
  | nil => rw [redactFields, editEntries]
  | cons kv kvs ih =>
    obtain ⟨k, x⟩ := kv
    rw [redactFields, editEntries, ih fun k x hx => h k x (.tail _ hx)]
    by_cases hk : k.isData = true
    · rw [if_pos hk, show (redactingEdit lower κ σ).onKey .item k = .put redactedText from if_pos hk]
    · rw [if_neg hk, show (redactingEdit lower κ σ).onKey .item k = .keep (Place.item.next lower k) from
        if_neg hk]
      simp only [← h k x (.head _), Place.next, if_true]
      split_ifs <;> rfl

/-- The redaction at a place is an edit. -/
theorem redact_eq_edit (p : Place) (v : Value κ σ) :
    p.redact lower v = edit (redactingEdit lower κ σ) p v := by
  induction v using Nested.ind generalizing p with
  | leaf a =>
    rw [edit]
    cases p <;> simp only [Place.redact, redact, redactAttachments, redactItem]
  | list xs ih =>
    have hmap : ∀ q : Place, xs.map (q.redact lower) = editItems (redactingEdit lower κ σ) q xs :=
      fun q => (List.map_congr_left fun x hx => ih x hx q).trans (editItems_eq q xs).symm
    rw [edit]
    show _ = Nested.list (editItems _ p.ofItems xs)
    rw [← hmap]
    cases p <;> simp only [Place.redact, redact, redactAttachments, redactItem, redactList_eq,
      redactItems_eq, Place.ofItems]
  | dict kvs ih =>
    rw [edit]
    cases p with
    | item =>
      show redactItem lower (.dict kvs) = _
      rw [redactItem, redactFields_eq ih]
    | plain =>
      show redact lower (.dict kvs) = _
      rw [redact, redactDict_eq (p := .plain) (fun h => by cases h) ih]
    | attachments =>
      show redactAttachments lower (.dict kvs) = _
      rw [redactAttachments, redactDict_eq (p := .attachments) (fun h => by cases h) ih]
    | nested =>
      show redact lower (.dict kvs) = _
      rw [redact, redactDict_eq (p := .nested) (fun h => by cases h) ih]

/-- What is replaced at a place is to be hidden there. -/
theorem Place.hides_of_replaces {p : Place} {k : DictKey κ} (h : p.replaces lower k = true) :
    p.zone.hides lower k = true := by
  rw [Place.replaces] at h
  rw [Zone.hides]
  split at h
  · rename_i hp
    subst hp
    simp [Place.zone, h]
  · simp [h]

theorem Place.zone_next (p : Place) (k : DictKey κ) : (p.next lower k).zone = k.zone lower := by
  rw [Place.next, DictKey.zone]
  split_ifs <;> rfl

theorem Place.zone_ofItems (p : Place) : p.ofItems.zone = p.zone := by
  cases p <;> rfl

/-- At a place everything is hidden exactly where it is covered. -/
theorem edit_eq_iff (p : Place) (v : Value κ σ) :
    edit (redactingEdit lower κ σ) p v = edit (hidingEdit lower κ σ) p.zone v ↔ Covered lower p v := by
  induction v using Nested.ind generalizing p with
  | leaf a =>
    rw [edit, edit]
    exact iff_of_true rfl (.leaf p a)
  | list xs ih =>
    rw [edit, edit, editItems_eq, editItems_eq, Nested.list.injEq]
    show xs.map (edit _ p.ofItems) = xs.map (edit _ p.zone) ↔ _
    rw [List.map_inj_left, ← Place.zone_ofItems]
    constructor
    · exact fun h => .list fun x hx => (ih x hx _).1 (h x hx)
    · rintro ⟨⟩ x hx
      rename_i h
      exact (ih x hx _).2 (h x hx)
  | dict kvs ih =>
    -- An entry comes out right when it is not missed, and its value comes out right.
    have hentries : editEntries (redactingEdit lower κ σ) p kvs =
          editEntries (hidingEdit lower κ σ) p.zone kvs ↔
        ∀ k x, (k, x) ∈ kvs →
          (p.zone.hides lower k = true → p.replaces lower k = false → x = .leaf redactedText) ∧
          (p.zone.hides lower k = false → Covered lower (p.next lower k) x) := by
      induction kvs with
      | nil =>
        rw [editEntries, editEntries]
        exact iff_of_true rfl fun k x hx => absurd hx List.not_mem_nil
      | cons kv kvs ihs =>
        obtain ⟨k, x⟩ := kv
        have hhead : editEntries (redactingEdit lower κ σ) p ((k, x) :: kvs) =
              editEntries (hidingEdit lower κ σ) p.zone ((k, x) :: kvs) ↔
            ((p.zone.hides lower k = true → p.replaces lower k = false → x = .leaf redactedText) ∧
              (p.zone.hides lower k = false → Covered lower (p.next lower k) x)) ∧
            editEntries (redactingEdit lower κ σ) p kvs =
              editEntries (hidingEdit lower κ σ) p.zone kvs := by
          have hx := ih k x (.head _) (p.next lower k)
          rw [Place.zone_next] at hx
          rw [editEntries, editEntries]
          cases hreplaces : p.replaces lower k with
          | true =>
            rw [show (redactingEdit lower κ σ).onKey p k = .put redactedText from if_pos hreplaces,
              show (hidingEdit lower κ σ).onKey p.zone k = .put redactedText from
                if_pos (Place.hides_of_replaces hreplaces)]
            simp [Place.hides_of_replaces hreplaces]
          | false =>
            rw [show (redactingEdit lower κ σ).onKey p k = .keep (p.next lower k) from
              if_neg (by simp [hreplaces])]
            cases hhides : p.zone.hides lower k with
            | true =>
              rw [show (hidingEdit lower κ σ).onKey p.zone k = .put redactedText from if_pos hhides]
              cases x <;> simp [edit]
            | false =>
              rw [show (hidingEdit lower κ σ).onKey p.zone k = .keep (k.zone lower) from
                if_neg (by simp [hhides])]
              simp [hx]
        rw [hhead, ihs fun k x hx => ih k x (.tail _ hx)]
        constructor
        · rintro ⟨hfirst, hrest⟩ k' x' hx'
          rcases List.mem_cons.1 hx' with heq | hx'
          · obtain ⟨rfl, rfl⟩ := Prod.mk.inj heq
            exact hfirst
          · exact hrest k' x' hx'
        · exact fun h => ⟨h k x (.head _), fun k' x' hx' => h k' x' (.tail _ hx')⟩
    rw [edit, edit, Nested.dict.injEq, hentries]
    constructor
    · exact fun h => .dict (fun k x hx => (h k x hx).1) fun k x hx => (h k x hx).2
    · rintro ⟨⟩ k x hx
      rename_i missed below
      exact ⟨missed k x hx, below k x hx⟩

end Covered

/-- **The redaction.** What is to be hidden in a value is hidden, and nothing else is changed, exactly
when its attachments are covered; and a second redaction changes nothing. -/
theorem redaction_iff (v : Value κ σ) :
    (Redacted lower v (redact lower v) ∧ redact lower (redact lower v) = redact lower v) ↔
      Covered lower .plain v := by
  have hedit : ∀ v : Value κ σ, redact lower v = edit (redactingEdit lower κ σ) .plain v :=
    redact_eq_edit .plain
  have hidem : redact lower (redact lower v) = redact lower v := by
    rw [hedit v, hedit, edit_edit]
  rw [and_iff_left hidem, redacted_iff, hedit]
  exact edit_eq_iff .plain v

/-- An attachment with a key of its own. -/
def keyedAttachment : Value Unit Unit :=
  .dict [(.str "attachments", .list [.dict [(.str "apiKey", .leaf (.str "sk-1"))]])]

/-- The key of an attachment is logged. -/
theorem redaction_fails : ¬∀ (lower : String → String) (v : Value Unit Unit),
    Redacted lower v (redact lower v) ∧ redact lower (redact lower v) = redact lower v := by
  intro h
  have hsecrets := (h String.toLower keyedAttachment).1.secrets
  have hredact : redact String.toLower keyedAttachment = keyedAttachment := by
    have hkey : isSensitiveKey String.toLower "attachments" = false := by decide +kernel
    have hatt : (String.toLower "attachments" = "attachments") = True := eq_true (by decide +kernel)
    simp only [keyedAttachment, redact, redactDict, redactAttachments, redactItems, redactItem,
      redactFields, DictKey.isSensitive, DictKey.isAttachments, DictKey.isData, hkey, hatt]
    rfl
  rw [hredact] at hsecrets
  have hstored : Stores keyedAttachment (.str "apiKey") (.leaf (.str "sk-1")) :=
    .dict (.head _) (.list (.head _) (.here (.head _)))
  have hsensitive : isSensitiveKey String.toLower "apiKey" = true := by decide +kernel
  have heq := hsecrets _ _ hstored hsensitive
  simp [redactedText] at heq

end ChatBackend.Observability
