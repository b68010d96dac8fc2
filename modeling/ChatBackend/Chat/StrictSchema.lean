import ChatBackend.Foundations.Nested

/-!
# Schemas for the strict mode

`_clean_for_openai_strict` keeps the keywords of a schema that the strict mode of OpenAI accepts. It
goes down by the positions of schemas only: the names of properties and definitions and the data of
`enum` and `const` are no keywords (`strict_schema_cleaning`).
-/

namespace ChatBackend.Chat

open Nested

/-- A scalar of JSON: a text, or a number, a boolean or the null. -/
inductive JsonScalar (ρ : Type) : Type
  | str (s : String)
  | other (a : ρ)

abbrev Schema (ρ : Type) : Type := Nested String (JsonScalar ρ)

/-- `_OPENAI_STRICT_ALLOWED_KEYWORDS`. -/
def strictAllowedKeywords : List String :=
  ["type", "properties", "items", "required", "additionalProperties", "description", "enum", "const",
    "anyOf", "$ref", "$defs"]

variable {ρ : Type}

mutual

/-- `_clean_for_openai_strict`; there is no value where the function raises. -/
def cleanForOpenaiStrict : Schema ρ → Option (Schema ρ)
  | .dict kvs => (cleanKeywords kvs).map .dict
  | .list xs => some (.list xs)
  | .leaf a => some (.leaf a)

/-- The loop over the keywords. -/
def cleanKeywords : List (String × Schema ρ) → Option (List (String × Schema ρ))
  | [] => some []
  | (key, value) :: kvs =>
    if key ∉ strictAllowedKeywords then cleanKeywords kvs
    else
      let cleaned :=
        if key = "properties" ∨ key = "$defs" then cleanNames value
        else if key = "anyOf" then cleanAnyOf value
        else if key = "items" then cleanItems value
        -- A value that is no schema is returned as it is.
        else if key = "additionalProperties" then cleanForOpenaiStrict value
        else some value
      match cleaned, cleanKeywords kvs with
      | some value, some rest => some ((key, value) :: rest)
      | _, _ => none

/-- The map of the names; only a dictionary has `items()`. -/
def cleanNames : Schema ρ → Option (Schema ρ)
  | .dict m => (cleanSubschemas m).map .dict
  | _ => none

def cleanSubschemas : List (String × Schema ρ) → Option (List (String × Schema ρ))
  | [] => some []
  | (name, subschema) :: m => do
    let subschema ← cleanForOpenaiStrict subschema
    let rest ← cleanSubschemas m
    some ((name, subschema) :: rest)

/-- The list of `anyOf`; a dictionary is gone through by its keys, and a text by its characters. -/
def cleanAnyOf : Schema ρ → Option (Schema ρ)
  | .list xs => (cleanEach xs).map .list
  | .dict m => some (.list (m.map fun kv => .leaf (.str kv.1)))
  | .leaf (.str s) => some (.list (s.toList.map fun c => .leaf (.str (String.singleton c))))
  | .leaf (.other _) => none

/-- `items`: a list of schemas, or a schema. -/
def cleanItems : Schema ρ → Option (Schema ρ)
  | .list xs => (cleanEach xs).map .list
  | .dict kvs => (cleanKeywords kvs).map .dict
  | .leaf a => some (.leaf a)

def cleanEach : List (Schema ρ) → Option (List (Schema ρ))
  | [] => some []
  | x :: xs => do
    let x ← cleanForOpenaiStrict x
    let rest ← cleanEach xs
    some (x :: rest)

end

/-! ## Positions -/

/-- What stands at a position of a schema: a schema, a map from names to schemas, a list of schemas,
a schema or a list of them, or data. -/
inductive Position : Type
  | schema
  | names
  | schemas
  | items
  | data
  deriving DecidableEq

/-- The position of the value of a keyword. -/
def positionOf (keyword : String) : Position :=
  if keyword = "properties" ∨ keyword = "$defs" then .names
  else if keyword = "anyOf" then .schemas
  else if keyword = "items" then .items
  else if keyword = "additionalProperties" then .schema
  else .data

/-- A valid schema, and what is valid at the other positions; a keyword that is not allowed may have
any value. -/
inductive ValidAt : Position → Schema ρ → Prop
  | boolean (a : JsonScalar ρ) : ValidAt .schema (.leaf a)
  | object {kvs : List (String × Schema ρ)}
      (h : ∀ k x, (k, x) ∈ kvs → k ∈ strictAllowedKeywords → ValidAt (positionOf k) x) :
      ValidAt .schema (.dict kvs)
  | names {m : List (String × Schema ρ)} (h : ∀ k x, (k, x) ∈ m → ValidAt .schema x) :
      ValidAt .names (.dict m)
  | schemas {xs : List (Schema ρ)} (h : ∀ x ∈ xs, ValidAt .schema x) : ValidAt .schemas (.list xs)
  | items {xs : List (Schema ρ)} (h : ∀ x ∈ xs, ValidAt .schema x) : ValidAt .items (.list xs)
  | item {x : Schema ρ} (h : ValidAt .schema x) : ValidAt .items x
  | data (x : Schema ρ) : ValidAt .data x

/-- Whether a key stays at a position: keywords are only at the positions of schemas. -/
def Position.keeps : Position → String → Bool
  | .schema, k | .items, k => k ∈ strictAllowedKeywords
  | _, _ => true

/-- The cleaning, by positions. -/
def strictEdit (ρ : Type) : Edit String (JsonScalar ρ) Position where
  onKey t k :=
    if t.keeps k then
      match t with
      | .schema | .items => .keep (positionOf k)
      | .names => .keep .schema
      | .schemas | .data => .keep .data
    else .drop
  onItem
    | .schemas | .items => .schema
    | _ => .data

section Clean

variable {v : Schema ρ}

theorem keeps_strictEdit (t : Position) (k : String) : (strictEdit ρ).keeps t k = t.keeps k := by
  rw [Edit.keeps, strictEdit]
  cases t <;> cases hk : Position.keeps _ k <;> simp [hk]

theorem edit_data (v : Schema ρ) : edit (strictEdit ρ) .data v = v :=
  edit_eq_self (fun _ => rfl) rfl v

theorem editEntries_items (kvs : List (String × Schema ρ)) :
    editEntries (strictEdit ρ) .items kvs = editEntries (strictEdit ρ) .schema kvs := by
  induction kvs with
  | nil => rw [editEntries, editEntries]
  | cons kv kvs ih =>
    obtain ⟨k, x⟩ := kv
    rw [editEntries, editEntries, ih]
    rfl

theorem cleanEach_eq {xs : List (Schema ρ)} (t : Position)
    (h : ∀ x ∈ xs, cleanForOpenaiStrict x = some (edit (strictEdit ρ) t x)) :
    cleanEach xs = some (editItems (strictEdit ρ) t xs) := by
  induction xs with
  | nil => rw [cleanEach, editItems]
  | cons x xs ih =>
    rw [cleanEach, editItems, h x (.head _), ih fun x hx => h x (.tail _ hx)]
    rfl

theorem cleanSubschemas_eq {m : List (String × Schema ρ)}
    (h : ∀ k x, (k, x) ∈ m → cleanForOpenaiStrict x = some (edit (strictEdit ρ) .schema x)) :
    cleanSubschemas m = some (editEntries (strictEdit ρ) .names m) := by
  induction m with
  | nil => rw [cleanSubschemas, editEntries]
  | cons kv m ih =>
    obtain ⟨k, x⟩ := kv
    rw [cleanSubschemas, h k x (.head _), ih fun k x hx => h k x (.tail _ hx), editEntries]
    rfl

/-- What the function does with the value at a position. -/
def cleanAt : Position → Schema ρ → Option (Schema ρ)
  | .schema, v => cleanForOpenaiStrict v
  | .names, v => cleanNames v
  | .schemas, v => cleanAnyOf v
  | .items, v => cleanItems v
  | .data, v => some v

theorem cleanKeywords_eq {kvs : List (String × Schema ρ)}
    (h : ∀ k x, (k, x) ∈ kvs → k ∈ strictAllowedKeywords →
      cleanAt (positionOf k) x = some (edit (strictEdit ρ) (positionOf k) x)) :
    cleanKeywords kvs = some (editEntries (strictEdit ρ) .schema kvs) := by
  induction kvs with
  | nil => rw [cleanKeywords, editEntries]
  | cons kv kvs ih =>
    obtain ⟨k, x⟩ := kv
    rw [cleanKeywords, editEntries, ih fun k x hx => h k x (.tail _ hx)]
    by_cases hk : k ∈ strictAllowedKeywords
    · have haction : (strictEdit ρ).onKey .schema k = .keep (positionOf k) :=
        if_pos (decide_eq_true hk)
      have hvalue : (if k = "properties" ∨ k = "$defs" then cleanNames x
          else if k = "anyOf" then cleanAnyOf x
          else if k = "items" then cleanItems x
          else if k = "additionalProperties" then cleanForOpenaiStrict x
          else some x) = cleanAt (positionOf k) x := by
        rw [positionOf]
        split_ifs <;> rfl
      simp only [if_neg (not_not.2 hk), hvalue, h k x (.head _) hk, haction]
    · have haction : (strictEdit ρ).onKey .schema k = .drop := if_neg (by simp [Position.keeps, hk])
      rw [if_pos hk, haction]

/-- At every position the function does what the edit does. -/
theorem cleanAt_eq (v : Schema ρ) (t : Position) (h : ValidAt t v) :
    cleanAt t v = some (edit (strictEdit ρ) t v) := by
  induction v using Nested.ind generalizing t with
  | leaf a =>
    rw [edit]
    cases h with
    | boolean => rw [cleanAt, cleanForOpenaiStrict]
    | item h => rw [cleanAt, cleanItems]
    | data => rfl
  | list xs ih =>
    rw [edit]
    cases h with
    | schemas h =>
      rw [cleanAt, cleanAnyOf, cleanEach_eq .schema fun x hx => ih x hx .schema (h x hx)]
      rfl
    | items h =>
      rw [cleanAt, cleanItems, cleanEach_eq .schema fun x hx => ih x hx .schema (h x hx)]
      rfl
    | item h => cases h
    | data => rw [← edit, edit_data, cleanAt]
  | dict kvs ih =>
    have hobject : ValidAt .schema (.dict kvs) →
        cleanKeywords kvs = some (editEntries (strictEdit ρ) .schema kvs) := by
      intro hschema
      cases hschema with
      | object hkvs => exact cleanKeywords_eq fun k x hx hk => ih k x hx _ (hkvs k x hx hk)
    rw [edit]
    cases h with
    | object h =>
      rw [cleanAt, cleanForOpenaiStrict, hobject (.object h)]
      rfl
    | names h =>
      rw [cleanAt, cleanNames, cleanSubschemas_eq fun k x hx => ih k x hx .schema (h k x hx)]
      rfl
    | item h =>
      rw [cleanAt, cleanItems, hobject h, editEntries_items]
      rfl
    | data => rw [← edit, edit_data, cleanAt]

/-- A cleaned schema is a schema. -/
theorem ValidAt.edit {t : Position} (h : ValidAt t v) : ValidAt t (Nested.edit (strictEdit ρ) t v) := by
  induction h with
  | boolean a =>
    rw [Nested.edit]
    exact .boolean a
  | @object kvs h ih =>
    rw [Nested.edit]
    refine .object fun k y hy hk => ?_
    obtain ⟨x, hx, hy⟩ := mem_editEntries.1 hy
    have haction : (strictEdit ρ).onKey .schema k = .keep (positionOf k) := if_pos (decide_eq_true hk)
    rw [haction] at hy
    exact hy ▸ ih k x hx hk
  | @names m h ih =>
    rw [Nested.edit]
    refine .names fun k y hy => ?_
    obtain ⟨x, hx, hy⟩ := mem_editEntries.1 hy
    exact hy ▸ ih k x hx
  | @schemas xs h ih =>
    rw [Nested.edit, editItems_eq]
    refine .schemas fun y hy => ?_
    obtain ⟨x, hx, rfl⟩ := List.mem_map.1 hy
    exact ih x hx
  | @items xs h ih =>
    rw [Nested.edit, editItems_eq]
    refine .items fun y hy => ?_
    obtain ⟨x, hx, rfl⟩ := List.mem_map.1 hy
    exact ih x hx
  | @item x h ih =>
    refine .item ?_
    cases h with
    | boolean a =>
      rw [Nested.edit]
      exact .boolean a
    | object h =>
      rw [Nested.edit] at ih ⊢
      rwa [editEntries_items]
  | data x => exact .data _

end Clean

/-- **Cleaning a schema for the strict mode.** The cleaning of a valid schema succeeds. Of the keys of
a dictionary it leaves those that stay at its position, in order: at a schema the allowed keywords, and
of names all. What stands below another keyword is gone, all else has the shape that it had, and the
data is what it was. A second cleaning changes nothing. -/
theorem strict_schema_cleaning {v : Schema ρ} (h : ValidAt .schema v) :
    ∃ w, cleanForOpenaiStrict v = some w ∧
      (∀ p, walk (strictEdit ρ) .schema p = .gone → w.get p = none) ∧
      (∀ p t, walk (strictEdit ρ) .schema p = .kept t → (w.get p).map shape = (v.get p).map shape) ∧
      (∀ p t kvs, walk (strictEdit ρ) .schema p = .kept t → v.get p = some (.dict kvs) →
        ∃ kws, w.get p = some (.dict kws) ∧ kws.map Prod.fst = (kvs.map Prod.fst).filter t.keeps) ∧
      (∀ p, walk (strictEdit ρ) .schema p = .kept .data → w.get p = v.get p) ∧
      cleanForOpenaiStrict w = some w := by
  refine ⟨edit (strictEdit ρ) .schema v, cleanAt_eq v .schema h, fun p hp => ?_, fun p t hp => ?_,
    fun p t kvs hp hv => ?_, fun p hp => ?_, ?_⟩
  · rw [get_edit, hp]
    rfl
  · rw [get_edit, hp, Fate.apply, Option.map_map]
    exact congrArg (Option.map · (v.get p)) (funext fun x => shape_edit t x)
  · refine ⟨editEntries (strictEdit ρ) t kvs, ?_, ?_⟩
    · rw [get_edit, hp, hv, Fate.apply, Option.map_some, edit]
    · rw [keys_editEntries]
      exact List.filter_congr fun k _ => keeps_strictEdit t k
  · rw [get_edit, hp, Fate.apply]
    rw [show edit (strictEdit ρ) .data = id from funext edit_data, Option.map_id]
    rfl
  · rw [← cleanAt, cleanAt_eq _ .schema h.edit, edit_edit]

/-- A schema with a property that is named like a keyword that is removed, and data that looks like
one. -/
def titledSchema : Schema Unit :=
  .dict [("title", .leaf (.str "Quiz")), ("type", .leaf (.str "object")),
    ("properties", .dict [("title", .dict [("maxLength", .leaf (.other ())),
      ("enum", .list [.dict [("title", .leaf (.str "a"))]])])]),
    ("required", .list [.leaf (.str "title")])]

theorem titledSchema_valid : ValidAt .schema titledSchema := by
  refine .object fun k x hx hk => ?_
  simp only [List.mem_cons, Prod.mk.injEq, List.not_mem_nil, or_false] at hx
  rcases hx with ⟨rfl, rfl⟩ | ⟨rfl, rfl⟩ | ⟨rfl, rfl⟩ | ⟨rfl, rfl⟩
  · exact absurd hk (by decide)
  · exact .data _
  · refine .names fun k x hx => ?_
    obtain ⟨rfl, rfl⟩ := Prod.mk.inj (List.mem_singleton.1 hx)
    refine .object fun k x hx hk => ?_
    simp only [List.mem_cons, Prod.mk.injEq, List.not_mem_nil, or_false] at hx
    rcases hx with ⟨rfl, rfl⟩ | ⟨rfl, rfl⟩
    · exact absurd hk (by decide)
    · exact .data _
  · exact .data _

theorem strict_schema_cleaning_titled : ∃ w, cleanForOpenaiStrict titledSchema = some w ∧
    (∀ p, walk (strictEdit Unit) .schema p = .gone → w.get p = none) ∧
    (∀ p t, walk (strictEdit Unit) .schema p = .kept t →
      (w.get p).map shape = (titledSchema.get p).map shape) ∧
    (∀ p t kvs, walk (strictEdit Unit) .schema p = .kept t → titledSchema.get p = some (.dict kvs) →
      ∃ kws, w.get p = some (.dict kws) ∧ kws.map Prod.fst = (kvs.map Prod.fst).filter t.keeps) ∧
    (∀ p, walk (strictEdit Unit) .schema p = .kept .data → w.get p = titledSchema.get p) ∧
    cleanForOpenaiStrict w = some w :=
  strict_schema_cleaning titledSchema_valid

/-- The name stays, and so does the data. -/
example : cleanForOpenaiStrict titledSchema = some (.dict [("type", .leaf (.str "object")),
    ("properties", .dict [("title", .dict [("enum", .list [.dict [("title", .leaf (.str "a"))]])])]),
    ("required", .list [.leaf (.str "title")])]) := by
  rfl

end ChatBackend.Chat
