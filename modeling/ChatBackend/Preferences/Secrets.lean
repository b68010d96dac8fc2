import ChatBackend.Observability.Redaction
import ChatBackend.Preferences.Interleaving

/-!
# What the preferences store

The validator of a patch refuses dictionaries that are too long or that have a key, at any depth, that
the redaction of the logs would hide. As columns only hold what patches have provided, no such
dictionary is ever stored (`stored_without_secrets`).
-/

namespace ChatBackend.Preferences

open Observability Store
open Nested (leaf list dict)

variable (lower : String → String) {κ σ : Type}

mutual

/-- `_has_sensitive_keys`. -/
def hasSensitiveKeys : Value κ σ → Bool
  | .leaf _ => false
  | .list xs => anySensitive xs
  | .dict kvs => sensitiveEntries kvs

def anySensitive : List (Value κ σ) → Bool
  | [] => false
  | x :: xs => hasSensitiveKeys x || anySensitive xs

/-- The loop over a dictionary. -/
def sensitiveEntries : List (DictKey κ × Value κ σ) → Bool
  | [] => false
  | (k, v) :: kvs => k.isSensitive lower || hasSensitiveKeys v || sensitiveEntries kvs

end

/-- A key of a dictionary, at any depth. -/
inductive HasKey (k : DictKey κ) : Value κ σ → Prop
  | here {kvs : List (DictKey κ × Value κ σ)} {v : Value κ σ} (h : (k, v) ∈ kvs) : HasKey k (.dict kvs)
  | entry {kvs : List (DictKey κ × Value κ σ)} {k' : DictKey κ} {v : Value κ σ} (h : (k', v) ∈ kvs)
      (hv : HasKey k v) : HasKey k (.dict kvs)
  | item {xs : List (Value κ σ)} {x : Value κ σ} (h : x ∈ xs) (hx : HasKey k x) : HasKey k (.list xs)

variable {lower}

theorem anySensitive_eq (xs : List (Value κ σ)) :
    anySensitive lower xs = xs.any (hasSensitiveKeys lower) := by
  induction xs with
  | nil => rfl
  | cons x xs ih => rw [anySensitive, ih, List.any_cons]

theorem sensitiveEntries_eq (kvs : List (DictKey κ × Value κ σ)) : sensitiveEntries lower kvs =
    kvs.any fun e => e.1.isSensitive lower || hasSensitiveKeys lower e.2 := by
  induction kvs with
  | nil => rfl
  | cons e kvs ih => rw [sensitiveEntries, ih, List.any_cons]

/-- A value that passes has no sensitive key at any depth. -/
theorem HasKey.not_sensitive {k : DictKey κ} {v : Value κ σ} (h : HasKey k v)
    (hv : hasSensitiveKeys lower v = false) : k.isSensitive lower = false := by
  induction h with
  | @here kvs v hmem =>
    rw [hasSensitiveKeys, sensitiveEntries_eq, List.any_eq_false] at hv
    have := hv _ hmem
    simp only [Bool.or_eq_true, not_or, Bool.not_eq_true] at this
    exact this.1
  | @entry kvs k' v hmem _ ih =>
    rw [hasSensitiveKeys, sensitiveEntries_eq, List.any_eq_false] at hv
    have := hv _ hmem
    simp only [Bool.or_eq_true, not_or, Bool.not_eq_true] at this
    exact ih this.2
  | @item xs x hmem _ ih =>
    rw [hasSensitiveKeys, anySensitive_eq, List.any_eq_false] at hv
    exact ih (by simpa using hv x hmem)

/-- `_CODE_DEFAULTS_MAX_BYTES`. -/
def codeDefaultsMaxBytes : ℕ := 8 * 1024

/-- `PreferencesPatchRequest._check`; `dumps` is the length of the text of a value in bytes. -/
def checkPatch (lower : String → String) (dumps : Value κ σ → ℕ) (p : PreferencesPatch (Value κ σ)) :
    Except String Unit :=
  if p.isEmpty then .error "at least one field is required"
  else
    match p.codeDefaults with
    | none => .ok ()
    | some v =>
      if dumps v > codeDefaultsMaxBytes then .error "codeDefaults exceeds size limit"
      else if hasSensitiveKeys lower v then .error "codeDefaults must not contain secrets"
      else .ok ()

/-- A dictionary that may be stored. -/
structure Storable (lower : String → String) (dumps : Value κ σ → ℕ) (v : Value κ σ) : Prop where
  keys : ∀ k, HasKey k v → k.isSensitive lower = false
  size : dumps v ≤ codeDefaultsMaxBytes

/-- What the validator lets pass. -/
theorem checkPatch_ok {dumps : Value κ σ → ℕ} {p : PreferencesPatch (Value κ σ)} {v : Value κ σ}
    (h : checkPatch lower dumps p = .ok ()) (hv : p.codeDefaults = some v) :
    Storable lower dumps v := by
  unfold checkPatch at h
  split at h
  · cases h
  · simp only [hv] at h
    split at h
    · cases h
    · rename_i hsize
      split at h
      · cases h
      · rename_i hkeys
        exact ⟨fun k hk => hk.not_sensitive (by simpa using hkeys), by omega⟩

/-- **No secrets are stored.** Where every patch has passed the validator, every interleaving of requests
commits only rows whose `code_defaults` are at most 8 KB and have no sensitive key at any depth. -/
theorem stored_without_secrets {ι : Type} [DecidableEq ι] {py : Dicts (Value κ σ)}
    {dumps : Value κ σ → ℕ} {d₀ : PreferencesDb (Value κ σ)} {user : ι → ℕ}
    {requests : ι → PreferencesRequest (Value κ σ)} {P : PreferencesPool (Value κ σ) ι}
    (hempty : py.empty = .dict []) (hdumps : dumps (.dict []) = 2)
    (hd₀ : ∀ u row, d₀.rows u = some row → Storable lower dumps row.codeDefaults)
    (hcheck : ∀ i p, requests i = .patch p → checkPatch lower dumps p = .ok ())
    (h : (serveAll py d₀ user requests).Reaches (preferencesStore py) P) {u : ℕ}
    {row : UserPreferences (Value κ σ)} (hrow : P.db.rows u = some row) :
    Storable lower dumps row.codeDefaults := by
  have hdefault : Storable lower dumps py.empty := by
    rw [hempty]
    refine ⟨fun k hk => hk.not_sensitive rfl, ?_⟩
    rw [hdumps, codeDefaultsMaxBytes]
    omega
  obtain hget | ⟨x, -, -, -, hprov⟩ := commits_traced (serveAll_keeps h).run hrow .codeDefaults
  · have hget : row.codeDefaults = ((d₀.rows u).getD (defaultRow py)).codeDefaults := hget
    rw [hget]
    cases hold : d₀.rows u with
    | none => exact hdefault
    | some old => exact hd₀ u old hold
  · cases hreq : requests x.1 with
    | get => simp [hreq, PreferencesRequest.provides] at hprov
    | patch p =>
      rw [hreq] at hprov
      exact checkPatch_ok (hcheck x.1 p hreq) hprov

/-- A patch with one dictionary, of a user without a row. -/
def onePatch : PreferencesRequest (Value Unit Unit) :=
  .patch ⟨none, none, none, some (.dict [(.str "language", .leaf (.str "lean"))])⟩

/-- The texts of the two dictionaries. -/
def dumpsLength : Value Unit Unit → ℕ
  | .dict [] => 2
  | _ => 20

/-- User 7 has a row. -/
def isStored (P : PreferencesPool (Value Unit Unit) (Fin 1)) : Bool := (P.db.rows 7).isSome

/-- Dictionaries that are all accepted. -/
def anyDicts : Dicts (Value Unit Unit) := ⟨.dict [], fun _ _ => false, fun _ => true, rfl⟩

theorem stored_without_secrets_patch : ∃ (P : PreferencesPool (Value Unit Unit) (Fin 1))
    (row : UserPreferences (Value Unit Unit)), P.db.rows 7 = some row ∧
      Storable (fun s => s) dumpsLength row.codeDefaults := by
  have hplay : (Pool.play (preferencesHandler anyDicts) [0] [0, 0, 0, 0]
      (serveAll anyDicts ⟨fun _ => none⟩ (fun _ => 7) fun _ => onePatch) ()).any
      (fun r => isStored r.1) = true := by decide +kernel
  obtain ⟨P, hP, hsome⟩ := Pool.exists_of_play (by decide) hplay
  obtain ⟨row, hrow⟩ := Option.isSome_iff_exists.1 hsome
  refine ⟨P, row, hrow, stored_without_secrets rfl rfl (fun u row h => by cases h) (fun i p h => ?_) hP
    hrow⟩
  obtain rfl := PreferencesRequest.patch.inj h
  decide +kernel

end ChatBackend.Preferences
