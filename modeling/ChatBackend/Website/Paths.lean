import ChatBackend.Foundations.Splitting

/-!
# Paths of site files

`normalize_site_path`, and the canonical paths, which are its values.
-/

namespace ChatBackend.Website

open Splitting

/-- The segments that are kept: all but the empty ones and the dots. -/
def keptSegments : List (List Char) → Except String (List (List Char))
  | [] => .ok []
  | segment :: rest =>
    if segment = [] ∨ segment = ['.'] then keptSegments rest
    else if segment = ['.', '.'] then .error "path must not contain '..' traversal"
    else
      match keptSegments rest with
      | .error message => .error message
      | .ok segments => .ok (segment :: segments)

/-- `normalize_site_path`; an error is the text of the exception. -/
def normalizeSitePath (raw : String) : Except String String :=
  if raw = "" then .error "path must not be empty"
  else if '\x00' ∈ raw.toList then .error "path must not contain NUL"
  else if '\\' ∈ raw.toList then .error "path must not contain backslash"
  else if raw.toList.head? = some '/' then .error "path must be relative, not absolute"
  else
    match keptSegments (raw.toList.splitOn '/') with
    | .error message => .error message
    | .ok segments =>
      if segments = [] then .error "path resolves to empty"
      else .ok (String.ofList (['/'].intercalate segments))

/-- A segment that may stand in a path. -/
def Segment (s : List Char) : Prop := s ≠ [] ∧ s ≠ ['.'] ∧ s ≠ ['.', '.']

/-- A canonical path: no NUL, no backslash, and no empty, dot or dot-dot segment. -/
structure Canonical (path : String) : Prop where
  nul : '\x00' ∉ path.toList
  backslash : '\\' ∉ path.toList
  segments : ∀ s ∈ path.toList.splitOn '/', Segment s

variable {raw path message : String} {ss segments : List (List Char)}

theorem keptSegments_mem (h : keptSegments ss = .ok segments) : ∀ s ∈ segments, Segment s ∧ s ∈ ss := by
  induction ss generalizing segments with
  | nil =>
    obtain rfl := Except.ok.inj h
    exact nofun
  | cons segment rest ih =>
    unfold keptSegments at h
    split at h
    · exact fun s hs => (ih h s hs).imp_right (.tail _)
    · rename_i hskip
      split at h
      · cases h
      · rename_i hdots
        split at h
        · cases h
        · rename_i kept hkept
          obtain rfl := Except.ok.inj h
          intro s hs
          obtain rfl | hs := List.mem_cons.1 hs
          · exact ⟨⟨fun hs => hskip (.inl hs), fun hs => hskip (.inr hs), hdots⟩, .head _⟩
          · exact (ih hkept s hs).imp_right (.tail _)

/-- **What is normalised is canonical.** -/
theorem canonical_of_normalizeSitePath (h : normalizeSitePath raw = .ok path) : Canonical path := by
  unfold normalizeSitePath at h
  split at h
  · cases h
  split at h
  · cases h
  rename_i hnul
  split at h
  · cases h
  rename_i hbackslash
  split at h
  · cases h
  split at h
  · cases h
  rename_i segments hsegments
  split at h
  · cases h
  rename_i hne
  obtain rfl := Except.ok.inj h
  have hmem := keptSegments_mem hsegments
  -- a character of the path is a slash, or one of the raw path
  have hraw : ∀ c ∈ (String.ofList (['/'].intercalate segments)).toList, c = '/' ∨ c ∈ raw.toList := by
    intro c hc
    rw [String.toList_ofList] at hc
    obtain hc | ⟨s, hs, hc⟩ := mem_of_mem_intercalate hc
    · exact .inl (List.mem_singleton.1 hc)
    · exact .inr (mem_of_mem_splitOn (hmem s hs).2 hc)
  refine ⟨fun hc => ?_, fun hc => ?_, fun s hs => ?_⟩
  · exact (hraw _ hc).elim (fun h => absurd h (by decide)) hnul
  · exact (hraw _ hc).elim (fun h => absurd h (by decide)) hbackslash
  · have hslash : ∀ s ∈ segments, '/' ∉ s := fun s hs => not_mem_of_mem_splitOn (hmem s hs).2
    rw [String.toList_ofList, List.splitOn_intercalate '/' hslash hne] at hs
    exact (hmem s hs).1

end ChatBackend.Website
