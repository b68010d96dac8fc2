import ChatBackend.Workspaces.Binding

/-!
# Bindings hold

What a request about workspaces and chats may commit, which the locks of PostgreSQL keep true until it
commits, and what the commits of any interleaving of requests keep.
-/

namespace ChatBackend.Workspaces.Binding

open Prog Store

/-! ## Integrity -/

/-- The workspace is there. -/
def BindingDb.Has (d : BindingDb) (w : ℕ) : Prop := ∃ ws ∈ d.workspaces, ws.id = w

/-- A chat that is bound is bound to a workspace of its user, a file has its workspace, and
identifiers are unique. -/
structure BindingDb.Bound (d : BindingDb) : Prop where
  chats : ∀ c ∈ d.chats, ∀ w, c.workspaceProjectId = some w →
    ∃ ws ∈ d.workspaces, ws.id = w ∧ ws.userId = c.userId
  files : ∀ f ∈ d.files, d.Has f.workspaceProjectId
  workspaceIds : (d.workspaces.map (·.id)).Nodup
  fileIds : (d.files.map (·.id)).Nodup
  chatIds : (d.chats.map (·.id)).Nodup

/-- The identifiers of the rows were taken for their users. -/
structure Owned (t : Taken) (d : BindingDb) : Prop where
  workspaces : ∀ ws ∈ d.workspaces, t.user ws.id = some ws.userId
  chats : ∀ c ∈ d.chats, t.user c.id = some c.userId
  files : ∀ f ∈ d.files, ∀ ws ∈ d.workspaces, ws.id = f.workspaceProjectId →
    t.user f.id = some ws.userId

/-- What a request of the user `u` may commit. -/
inductive May (t : Taken) (d : BindingDb) (u : ℕ) : List BindingOp → Prop
  | nil : May t d u []
  | insertWorkspace {row : WorkspaceProject} (hu : row.userId = u) (ht : t.user row.id = some u)
      (hnew : ∀ ws ∈ d.workspaces, ws.id ≠ row.id) : May t d u [.insertWorkspace row]
  | updateWorkspace {id : ℕ} {p : WorkspaceChange} (ht : t.user id = some u) :
      May t d u [.updateWorkspace id p]
  | deleteWorkspace {id : ℕ} {files chats : List ℕ} (ht : t.user id = some u)
      (hf : ∀ f ∈ files, t.user f = some u) (hc : ∀ c ∈ chats, t.user c = some u)
      (hfiles : ∀ f ∈ d.files, f.workspaceProjectId = id ↔ f.id ∈ files)
      (hchats : ∀ c ∈ d.chats, c.workspaceProjectId = some id ↔ c.id ∈ chats) :
      May t d u [.deleteWorkspace id files chats]
  | insertFile {row : WorkspaceFile} (ht : t.user row.id = some u)
      (hw : d.Has row.workspaceProjectId) (hu : t.user row.workspaceProjectId = some u)
      (hnew : ∀ f ∈ d.files, f.id ≠ row.id) : May t d u [.insertFile row]
  | deleteFile {id : ℕ} (ht : t.user id = some u) : May t d u [.deleteFile id]
  | insertChat {row : ChatRow} (hu : row.userId = u) (ht : t.user row.id = some u)
      (hw : ∀ w, row.workspaceProjectId = some w → d.Has w ∧ t.user w = some u)
      (hnew : ∀ c ∈ d.chats, c.id ≠ row.id) : May t d u [.insertChat row]
  | updateChat {id : ℕ} {p : ChatChange} (ht : t.user id = some u)
      (hw : ∀ w, p.bindsTo = some w → d.Has w ∧ t.user w = some u) : May t d u [.updateChat id p]
  | deleteChat {id : ℕ} (ht : t.user id = some u) : May t d u [.deleteChat id]

/-- A request commits one write at most. -/
theorem May.single {t : Taken} {d : BindingDb} {u : ℕ} {log : List BindingOp} (h : May t d u log) :
    log = [] ∨ ∃ o, log = [o] := by
  cases h with
  | nil => exact .inl rfl
  | _ => exact .inr ⟨_, rfl⟩

/-! ## Locks -/

section Locks

variable {ops : List BindingOp} {o : BindingOp} {d : BindingDb} {w : ℕ}

/-- A row that is held is held by no other write in a conflicting mode. -/
theorem Apart.not_locked {k : RowRef × LockMode} (hc : BindingOp.Apart ops [o])
    (hk : k ∈ ops.flatMap BindingOp.locks) {m : LockMode} (hm : k.2.conflicts m = true) :
    (k.1, m) ∉ o.locks := by
  intro hlock
  have hno := hc k hk (k.1, m) (by simpa using hlock) rfl
  rw [hm] at hno
  cases hno

/-- A workspace that is referred to stays. -/
theorem BindingDb.Has.apply (h : d.Has w) (hc : BindingOp.Apart ops [o])
    (hk : (RowRef.workspace w, LockMode.keyShare) ∈ ops.flatMap BindingOp.locks) :
    (o.apply d).Has w := by
  obtain ⟨ws, hws, rfl⟩ := h
  cases o with
  | insertWorkspace row => exact ⟨ws, List.mem_append_left _ hws, rfl⟩
  | updateWorkspace id p =>
    refine ⟨_, List.mem_map_of_mem hws, ?_⟩
    split <;> rfl
  | deleteWorkspace id files chats =>
    refine ⟨ws, List.mem_filter.2 ⟨hws, ?_⟩, rfl⟩
    have hne : ws.id ≠ id := by
      rintro rfl
      exact (Apart.not_locked hc hk (m := .update) rfl (by simp [BindingOp.locks])).elim
    simpa using hne
  | _ => exact ⟨ws, hws, rfl⟩

/-- The workspaces have no new row with an id that is held. -/
theorem newWorkspace_apply (h : ∀ ws ∈ d.workspaces, ws.id ≠ w) (hc : BindingOp.Apart ops [o])
    (hk : (RowRef.workspace w, LockMode.update) ∈ ops.flatMap BindingOp.locks) :
    ∀ ws ∈ (o.apply d).workspaces, ws.id ≠ w := by
  intro ws hws
  cases o with
  | insertWorkspace row =>
    rcases List.mem_append.1 hws with hws | hws
    · exact h ws hws
    · obtain rfl := List.mem_singleton.1 hws
      rintro rfl
      exact (Apart.not_locked hc hk (m := .update) rfl (by simp [BindingOp.locks])).elim
  | updateWorkspace id p =>
    obtain ⟨ws₀, h₀, rfl⟩ := List.mem_map.1 hws
    have hid := h ws₀ h₀
    split <;> simpa [WorkspaceProject.change] using hid
  | deleteWorkspace id files chats => exact h ws (List.mem_of_mem_filter hws)
  | _ => exact h ws hws

theorem newFile_apply (h : ∀ f ∈ d.files, f.id ≠ w) (hc : BindingOp.Apart ops [o])
    (hk : (RowRef.file w, LockMode.update) ∈ ops.flatMap BindingOp.locks) :
    ∀ f ∈ (o.apply d).files, f.id ≠ w := by
  intro f hf
  cases o with
  | insertFile row =>
    rcases List.mem_append.1 hf with hf | hf
    · exact h f hf
    · obtain rfl := List.mem_singleton.1 hf
      rintro rfl
      exact (Apart.not_locked hc hk (m := .update) rfl (by simp [BindingOp.locks])).elim
  | deleteWorkspace id files chats => exact h f (List.mem_of_mem_filter hf)
  | deleteFile id => exact h f (List.mem_of_mem_filter hf)
  | _ => exact h f hf

theorem newChat_apply (h : ∀ c ∈ d.chats, c.id ≠ w) (hc : BindingOp.Apart ops [o])
    (hk : (RowRef.chat w, LockMode.update) ∈ ops.flatMap BindingOp.locks) :
    ∀ c ∈ (o.apply d).chats, c.id ≠ w := by
  intro c hmem
  cases o with
  | insertChat row =>
    rcases List.mem_append.1 hmem with hmem | hmem
    · exact h c hmem
    · obtain rfl := List.mem_singleton.1 hmem
      rintro rfl
      exact (Apart.not_locked hc hk (m := .update) rfl (by simp [BindingOp.locks])).elim
  | deleteWorkspace id files chats =>
    obtain ⟨c₀, h₀, rfl⟩ := List.mem_map.1 hmem
    have hid := h c₀ h₀
    split <;> exact hid
  | updateChat id p =>
    obtain ⟨c₀, h₀, rfl⟩ := List.mem_map.1 hmem
    have hid := h c₀ h₀
    split <;> exact hid
  | deleteChat id => exact h c (List.mem_of_mem_filter hmem)
  | _ => exact h c hmem

/-- The files of a workspace that is being deleted stay the ones that were found. -/
theorem files_apply {files : List ℕ} (h : ∀ f ∈ d.files, f.workspaceProjectId = w ↔ f.id ∈ files)
    (hc : BindingOp.Apart ops [o])
    (hw : (RowRef.workspace w, LockMode.update) ∈ ops.flatMap BindingOp.locks)
    (hfiles : ∀ f ∈ files, (RowRef.file f, LockMode.update) ∈ ops.flatMap BindingOp.locks) :
    ∀ f ∈ (o.apply d).files, f.workspaceProjectId = w ↔ f.id ∈ files := by
  intro f hf
  cases o with
  | insertFile row =>
    rcases List.mem_append.1 hf with hf | hf
    · exact h f hf
    · obtain rfl := List.mem_singleton.1 hf
      refine ⟨?_, fun hmem => ?_⟩
      · rintro rfl
        exact (Apart.not_locked hc hw (m := .keyShare) rfl (by simp [BindingOp.locks])).elim
      · exact (Apart.not_locked hc (hfiles _ hmem) (m := .update) rfl (by simp [BindingOp.locks])).elim
  | deleteWorkspace id files chats => exact h f (List.mem_of_mem_filter hf)
  | deleteFile id => exact h f (List.mem_of_mem_filter hf)
  | _ => exact h f hf

/-- The chats that are bound to a workspace that is being deleted stay the ones that were found. -/
theorem chats_apply {chats : List ℕ}
    (h : ∀ c ∈ d.chats, c.workspaceProjectId = some w ↔ c.id ∈ chats)
    (hc : BindingOp.Apart ops [o])
    (hw : (RowRef.workspace w, LockMode.update) ∈ ops.flatMap BindingOp.locks)
    (hchats : ∀ c ∈ chats, (RowRef.chat c, LockMode.noKeyUpdate) ∈ ops.flatMap BindingOp.locks) :
    ∀ c ∈ (o.apply d).chats, c.workspaceProjectId = some w ↔ c.id ∈ chats := by
  intro c hmem
  cases o with
  | insertChat row =>
    rcases List.mem_append.1 hmem with hmem | hmem
    · exact h c hmem
    · obtain rfl := List.mem_singleton.1 hmem
      refine ⟨fun hbound => ?_, fun hid => ?_⟩
      · exact (Apart.not_locked hc hw (m := .keyShare) rfl (by simp [BindingOp.locks, hbound])).elim
      · exact (Apart.not_locked hc (hchats _ hid) (m := .update) rfl (by simp [BindingOp.locks])).elim
  | deleteWorkspace id files chats' =>
    obtain ⟨c₀, h₀, rfl⟩ := List.mem_map.1 hmem
    have hiff := h c₀ h₀
    split
    · rename_i hin
      refine ⟨fun hno => by simp at hno, fun hid => ?_⟩
      exact (Apart.not_locked hc (hchats c₀.id hid) (m := .noKeyUpdate) rfl
        (by simp [BindingOp.locks, hin])).elim
    · exact hiff
  | updateChat id p =>
    obtain ⟨c₀, h₀, rfl⟩ := List.mem_map.1 hmem
    have hiff := h c₀ h₀
    split
    · rename_i hid
      have hnot : c₀.id ∉ chats := fun hin => by
        exact (Apart.not_locked hc (hchats c₀.id hin) (m := .noKeyUpdate) rfl
          (by simp [BindingOp.locks, hid])).elim
      refine ⟨fun hbound => ?_, fun hin => absurd hin hnot⟩
      cases hp : p.workspaceProjectId with
      | none =>
        refine hiff.1 ?_
        simpa [ChatRow.change, hp] using hbound
      | some target =>
        obtain rfl : target = some w := by simpa [ChatRow.change, hp] using hbound
        exact (Apart.not_locked hc hw (m := .keyShare) rfl
          (by simp [BindingOp.locks, ChatChange.bindsTo, hp])).elim
    · exact hiff
  | deleteChat id => exact h c (List.mem_of_mem_filter hmem)
  | _ => exact h c hmem

end Locks

/-- **What a request may commit, it may still commit** after a commit that its locks let through. -/
theorem May.commit {t : Taken} {d : BindingDb} {u u' : ℕ} {ops log : List BindingOp}
    (h : May t d u ops) (ho : May t d u' log) (hc : BindingOp.Apart ops log) :
    May t (bindingStore.view log d) u ops := by
  rcases ho.single with rfl | ⟨o, rfl⟩
  · exact h
  show May t (o.apply d) u ops
  cases h with
  | nil => exact .nil
  | insertWorkspace hu ht hnew =>
    exact .insertWorkspace hu ht (newWorkspace_apply hnew hc (by simp [BindingOp.locks]))
  | updateWorkspace ht => exact .updateWorkspace ht
  | deleteWorkspace ht hf hch hfiles hchats =>
    refine .deleteWorkspace ht hf hch (files_apply hfiles hc (by simp [BindingOp.locks]) ?_)
      (chats_apply hchats hc (by simp [BindingOp.locks]) ?_)
    · intro f hmem
      simp [BindingOp.locks, hmem]
    · intro c hmem
      simp [BindingOp.locks, hmem]
  | insertFile ht hw hu hnew =>
    exact .insertFile ht (hw.apply hc (by simp [BindingOp.locks])) hu
      (newFile_apply hnew hc (by simp [BindingOp.locks]))
  | deleteFile ht => exact .deleteFile ht
  | insertChat hu ht hw hnew =>
    refine .insertChat hu ht (fun w hbound => ⟨(hw w hbound).1.apply hc ?_, (hw w hbound).2⟩)
      (newChat_apply hnew hc (by simp [BindingOp.locks]))
    simp [BindingOp.locks, hbound]
  | updateChat ht hw =>
    refine .updateChat ht fun w hbound => ⟨(hw w hbound).1.apply hc ?_, (hw w hbound).2⟩
    simp [BindingOp.locks, hbound]
  | deleteChat ht => exact .deleteChat ht

theorem May.mono {t t' : Taken} {d : BindingDb} {u : ℕ} {ops : List BindingOp} (h : May t d u ops)
    (ht : t ≤ t') : May t' d u ops := by
  have hle : ∀ {id : ℕ}, t.user id = some u → t'.user id = some u := Taken.user_mono ht
  cases h with
  | nil => exact .nil
  | insertWorkspace hu ht hnew => exact .insertWorkspace hu (hle ht) hnew
  | updateWorkspace ht => exact .updateWorkspace (hle ht)
  | deleteWorkspace ht hf hc hfiles hchats =>
    exact .deleteWorkspace (hle ht) (fun f hmem => hle (hf f hmem)) (fun c hmem => hle (hc c hmem))
      hfiles hchats
  | insertFile ht hw hu hnew => exact .insertFile (hle ht) hw (hle hu) hnew
  | deleteFile ht => exact .deleteFile (hle ht)
  | insertChat hu ht hw hnew =>
    exact .insertChat hu (hle ht) (fun w hbound => ⟨(hw w hbound).1, hle (hw w hbound).2⟩) hnew
  | updateChat ht hw =>
    exact .updateChat (hle ht) fun w hbound => ⟨(hw w hbound).1, hle (hw w hbound).2⟩
  | deleteChat ht => exact .deleteChat (hle ht)

/-! ## What a commit keeps -/

section Commits

variable {t : Taken} {d : BindingDb} {u v : ℕ} {log : List BindingOp}

/-- A map that leaves the ids leaves them unique. -/
theorem map_id_map {α : Type} {id : α → ℕ} {f : α → α} (hf : ∀ a, id (f a) = id a) (l : List α) :
    (l.map f).map id = l.map id := by
  rw [List.map_map]
  exact List.map_congr_left fun a _ => hf a

theorem nodup_append_new {α : Type} {id : α → ℕ} {l : List α} {row : α} (hl : (l.map id).Nodup)
    (hnew : ∀ a ∈ l, id a ≠ id row) : ((l ++ [row]).map id).Nodup := by
  rw [List.map_append, List.nodup_append]
  refine ⟨hl, by simp, fun x hx y hy => ?_⟩
  obtain ⟨a, ha, rfl⟩ := List.mem_map.1 hx
  obtain rfl : y = id row := by simpa using hy
  exact hnew a ha

theorem nodup_filter {α : Type} {id : α → ℕ} {l : List α} (p : α → Bool) (hl : (l.map id).Nodup) :
    ((l.filter p).map id).Nodup :=
  hl.sublist (List.filter_sublist.map id)

@[simp] theorem WorkspaceProject.change_id (p : WorkspaceChange) (row : WorkspaceProject) :
    (row.change p).id = row.id := rfl

@[simp] theorem WorkspaceProject.change_userId (p : WorkspaceChange) (row : WorkspaceProject) :
    (row.change p).userId = row.userId := rfl

@[simp] theorem ChatRow.change_id (p : ChatChange) (row : ChatRow) : (row.change p).id = row.id := rfl

@[simp] theorem ChatRow.change_userId (p : ChatChange) (row : ChatRow) :
    (row.change p).userId = row.userId := rfl

/-- A workspace after the changes of a flush. -/
theorem mem_change {id : ℕ} {p : WorkspaceChange} {ws : WorkspaceProject} (h : ws ∈ d.workspaces) :
    ∃ ws' ∈ ((BindingOp.updateWorkspace id p).apply d).workspaces, ws'.id = ws.id ∧
      ws'.userId = ws.userId := by
  refine ⟨_, List.mem_map_of_mem h, ?_⟩
  split <;> exact ⟨rfl, rfl⟩

theorem mem_of_change {id : ℕ} {p : WorkspaceChange} {ws' : WorkspaceProject}
    (h : ws' ∈ ((BindingOp.updateWorkspace id p).apply d).workspaces) :
    ∃ ws ∈ d.workspaces, ws.id = ws'.id ∧ ws.userId = ws'.userId := by
  obtain ⟨ws, hws, rfl⟩ := List.mem_map.1 h
  refine ⟨ws, hws, ?_⟩
  split <;> exact ⟨rfl, rfl⟩

/-- A chat after the changes of a commit. -/
theorem mem_of_unbind {chats : List ℕ} {id : ℕ} {files : List ℕ} {c' : ChatRow}
    (h : c' ∈ ((BindingOp.deleteWorkspace id files chats).apply d).chats) :
    ∃ c ∈ d.chats, c.id = c'.id ∧ c.userId = c'.userId ∧ (c.id ∈ chats ∧ c'.workspaceProjectId = none ∨
      c.id ∉ chats ∧ c' = c) := by
  obtain ⟨c, hc, rfl⟩ := List.mem_map.1 h
  refine ⟨c, hc, ?_⟩
  by_cases hin : c.id ∈ chats <;> simp [hin]

theorem mem_of_flush {id : ℕ} {p : ChatChange} {c' : ChatRow}
    (h : c' ∈ ((BindingOp.updateChat id p).apply d).chats) :
    ∃ c ∈ d.chats, c.id = c'.id ∧ c.userId = c'.userId ∧ (c.id = id ∧ c' = c.change p ∨
      c.id ≠ id ∧ c' = c) := by
  obtain ⟨c, hc, rfl⟩ := List.mem_map.1 h
  refine ⟨c, hc, ?_⟩
  by_cases hid : c.id = id <;> simp [hid]

/-- A commit leaves the rows with their users. -/
theorem May.owned (h : May t d u log) (ho : Owned t d) (hb : d.Bound) :
    Owned t (bindingStore.view log d) := by
  cases h with
  | nil => exact ho
  | @insertWorkspace row hu ht hnew =>
    refine ⟨fun ws hws => ?_, ho.chats, fun f hf ws hws hid => ?_⟩
    · rcases List.mem_append.1 hws with hws | hws
      · exact ho.workspaces ws hws
      · rw [List.mem_singleton.1 hws, hu]
        exact ht
    · rcases List.mem_append.1 hws with hws | hws
      · exact ho.files f hf ws hws hid
      · obtain rfl := List.mem_singleton.1 hws
        obtain ⟨ws₀, h₀, hid₀⟩ := hb.files f hf
        exact absurd (hid₀.trans hid.symm) (hnew ws₀ h₀)
  | updateWorkspace ht =>
    refine ⟨fun ws' hws' => ?_, ho.chats, fun f hf ws' hws' hid => ?_⟩
    · obtain ⟨ws, hws, hid, huser⟩ := mem_of_change hws'
      rw [← hid, ← huser]
      exact ho.workspaces ws hws
    · obtain ⟨ws, hws, hid₀, huser⟩ := mem_of_change hws'
      rw [← huser]
      exact ho.files f hf ws hws (hid₀.trans hid)
  | deleteWorkspace ht hf hch hfiles hchats =>
    refine ⟨fun ws hws => ho.workspaces ws (List.mem_of_mem_filter hws), fun c' hc' => ?_,
      fun f hf ws hws => ho.files f (List.mem_of_mem_filter hf) ws (List.mem_of_mem_filter hws)⟩
    obtain ⟨c, hc, hid, huser, -⟩ := mem_of_unbind hc'
    rw [← hid, ← huser]
    exact ho.chats c hc
  | insertFile ht hw hu hnew =>
    refine ⟨ho.workspaces, ho.chats, fun f hf ws hws hid => ?_⟩
    rcases List.mem_append.1 hf with hf | hf
    · exact ho.files f hf ws hws hid
    · rw [List.mem_singleton.1 hf] at hid ⊢
      rw [ht, ← hu, ← hid]
      exact ho.workspaces ws hws
  | deleteFile ht =>
    exact ⟨ho.workspaces, ho.chats, fun f hf => ho.files f (List.mem_of_mem_filter hf)⟩
  | insertChat hu ht hw hnew =>
    refine ⟨ho.workspaces, fun c hc => ?_, ho.files⟩
    rcases List.mem_append.1 hc with hc | hc
    · exact ho.chats c hc
    · rw [List.mem_singleton.1 hc, hu]
      exact ht
  | updateChat ht hw =>
    refine ⟨ho.workspaces, fun c' hc' => ?_, ho.files⟩
    obtain ⟨c, hc, hid, huser, -⟩ := mem_of_flush hc'
    rw [← hid, ← huser]
    exact ho.chats c hc
  | deleteChat ht =>
    exact ⟨ho.workspaces, fun c hc => ho.chats c (List.mem_of_mem_filter hc), ho.files⟩

/-- **A commit keeps the bindings.** -/
theorem May.bound (h : May t d u log) (ho : Owned t d) (hb : d.Bound) :
    (bindingStore.view log d).Bound := by
  have howner : ∀ {w : ℕ}, d.Has w → t.user w = some u →
      ∃ ws ∈ d.workspaces, ws.id = w ∧ ws.userId = u := by
    rintro w ⟨ws, hws, rfl⟩ hw
    exact ⟨ws, hws, rfl, Option.some.inj ((ho.workspaces ws hws).symm.trans hw)⟩
  cases h with
  | nil => exact hb
  | insertWorkspace hu ht hnew =>
    refine ⟨fun c hc w hw => ?_, fun f hf => ?_, nodup_append_new hb.workspaceIds hnew, hb.fileIds,
      hb.chatIds⟩
    · exact (hb.chats c hc w hw).imp fun ws h => ⟨List.mem_append_left _ h.1, h.2⟩
    · exact (hb.files f hf).imp fun ws h => ⟨List.mem_append_left _ h.1, h.2⟩
  | updateWorkspace ht =>
    refine ⟨fun c hc w hw => ?_, fun f hf => ?_, ?_, hb.fileIds, hb.chatIds⟩
    · obtain ⟨ws, hws, hid, huser⟩ := hb.chats c hc w hw
      obtain ⟨ws', hws', hid', huser'⟩ := mem_change hws
      exact ⟨ws', hws', hid'.trans hid, huser'.trans huser⟩
    · obtain ⟨ws, hws, hid⟩ := hb.files f hf
      obtain ⟨ws', hws', hid', -⟩ := mem_change hws
      exact ⟨ws', hws', hid'.trans hid⟩
    · show ((List.map _ d.workspaces).map WorkspaceProject.id).Nodup
      rw [map_id_map fun ws => by split <;> rfl]
      exact hb.workspaceIds
  | @deleteWorkspace id files chats ht hf hch hfiles hchats =>
    refine ⟨fun c' hc' w hw => ?_, fun f hmem => ?_, nodup_filter _ hb.workspaceIds,
      nodup_filter _ hb.fileIds, ?_⟩
    · obtain ⟨c, hc, -, -, ⟨-, hnone⟩ | ⟨hnot, rfl⟩⟩ := mem_of_unbind hc'
      · simp [hnone] at hw
      · obtain ⟨ws, hws, rfl, huser⟩ := hb.chats c' hc w hw
        have hne : ws.id ≠ id := fun hid => hnot ((hchats c' hc).1 (hid ▸ hw))
        exact ⟨ws, List.mem_filter.2 ⟨hws, by simpa using hne⟩, rfl, huser⟩
    · obtain ⟨hmem, hnot⟩ := List.mem_filter.1 hmem
      obtain ⟨ws, hws, hid⟩ := hb.files f hmem
      have hne : ws.id ≠ id := fun hdel => by
        simp [(hfiles f hmem).1 (hid.symm.trans hdel)] at hnot
      exact ⟨ws, List.mem_filter.2 ⟨hws, by simpa using hne⟩, hid⟩
    · show ((List.map _ d.chats).map ChatRow.id).Nodup
      rw [map_id_map fun c => by split <;> rfl]
      exact hb.chatIds
  | insertFile ht hw hu hnew =>
    refine ⟨hb.chats, fun f hf => ?_, hb.workspaceIds, nodup_append_new hb.fileIds hnew, hb.chatIds⟩
    rcases List.mem_append.1 hf with hf | hf
    · exact hb.files f hf
    · rw [List.mem_singleton.1 hf]
      exact hw
  | deleteFile ht =>
    exact ⟨hb.chats, fun f hf => hb.files f (List.mem_of_mem_filter hf), hb.workspaceIds,
      nodup_filter _ hb.fileIds, hb.chatIds⟩
  | insertChat hu ht hw hnew =>
    refine ⟨fun c hc w hbound => ?_, hb.files, hb.workspaceIds, hb.fileIds,
      nodup_append_new hb.chatIds hnew⟩
    rcases List.mem_append.1 hc with hc | hc
    · exact hb.chats c hc w hbound
    · rw [List.mem_singleton.1 hc] at hbound ⊢
      rw [hu]
      exact howner (hw w hbound).1 (hw w hbound).2
  | @updateChat id p ht hw =>
    refine ⟨fun c' hc' w hbound => ?_, hb.files, hb.workspaceIds, hb.fileIds, ?_⟩
    · obtain ⟨c, hc, -, huser, ⟨hid, rfl⟩ | ⟨-, rfl⟩⟩ := mem_of_flush hc'
      · cases hp : p.workspaceProjectId with
        | none => exact hb.chats c hc w (by simpa [ChatRow.change, hp] using hbound)
        | some target =>
          obtain rfl : target = some w := by simpa [ChatRow.change, hp] using hbound
          obtain ⟨hhas, hu⟩ := hw w (by simp [ChatChange.bindsTo, hp])
          have hcu : c.userId = u :=
            Option.some.inj ((ho.chats c hc).symm.trans (hid ▸ ht))
          rw [ChatRow.change_userId, hcu]
          exact howner hhas hu
      · exact hb.chats c' hc w hbound
    · show ((List.map _ d.chats).map ChatRow.id).Nodup
      rw [map_id_map fun c => by split <;> rfl]
      exact hb.chatIds
  | deleteChat ht =>
    exact ⟨fun c hc => hb.chats c (List.mem_of_mem_filter hc), hb.files, hb.workspaceIds, hb.fileIds,
      nodup_filter _ hb.chatIds⟩

/-! ## Rows of the others -/

/-- The rows of a user are as they were. -/
structure Frame (v : ℕ) (d d' : BindingDb) : Prop where
  workspaces : d'.workspaces.filter (·.userId = v) = d.workspaces.filter (·.userId = v)
  chats : d'.chats.filter (·.userId = v) = d.chats.filter (·.userId = v)
  files : ∀ ws ∈ d.workspaces, ws.userId = v → d'.filesOf ws.id = d.filesOf ws.id

theorem Frame.refl (v : ℕ) (d : BindingDb) : Frame v d d := ⟨rfl, rfl, fun _ _ _ => rfl⟩

theorem Frame.trans {d d' d'' : BindingDb} (h : Frame v d d') (h' : Frame v d' d'') :
    Frame v d d'' := by
  refine ⟨h'.workspaces.trans h.workspaces, h'.chats.trans h.chats, fun ws hws hv => ?_⟩
  have hmem : ws ∈ d'.workspaces.filter (·.userId = v) := by
    rw [h.workspaces]
    simpa using ⟨hws, hv⟩
  exact (h'.files ws (List.mem_of_mem_filter hmem) hv).trans (h.files ws hws hv)

/-- A table that is changed at rows of another user. -/
theorem filter_map_of_ne {α : Type} {user : α → ℕ} {f : α → α} {l : List α}
    (hf : ∀ a ∈ l, user (f a) = user a) (hv : ∀ a ∈ l, user a = v → f a = a) :
    (l.map f).filter (user · = v) = l.filter (user · = v) := by
  rw [List.filter_map, List.filter_congr (q := (user · = v)) fun a ha => by simp [hf a ha]]
  refine (List.map_congr_left fun a ha => ?_).trans (List.map_id _)
  obtain ⟨hmem, hu⟩ := List.mem_filter.1 ha
  exact hv a hmem (of_decide_eq_true hu)

theorem filter_filter_of_ne {α : Type} {p q : α → Bool} {l : List α}
    (h : ∀ a ∈ l, q a = true → p a = true) : (l.filter p).filter q = l.filter q := by
  rw [List.filter_filter]
  refine List.filter_congr fun a ha => ?_
  cases hq : q a with
  | false => rfl
  | true => simp [h a ha hq]

theorem filter_append_of_ne {α : Type} {q : α → Bool} {l : List α} {row : α} (h : q row = false) :
    (l ++ [row]).filter q = l.filter q := by
  simp [h]

/-- **A commit of a user** leaves the rows of the others. -/
theorem May.frame (h : May t d u log) (ho : Owned t d) (huv : u ≠ v) :
    Frame v d (bindingStore.view log d) := by
  have hworkspace : ∀ {id : ℕ}, t.user id = some u →
      ∀ ws ∈ d.workspaces, ws.userId = v → ws.id ≠ id := by
    rintro id hid ws hws rfl rfl
    exact huv (Option.some.inj (hid.symm.trans (ho.workspaces ws hws)))
  have hchat : ∀ {id : ℕ}, t.user id = some u → ∀ c ∈ d.chats, c.userId = v → c.id ≠ id := by
    rintro id hid c hc rfl rfl
    exact huv (Option.some.inj (hid.symm.trans (ho.chats c hc)))
  have hfile : ∀ {id : ℕ}, t.user id = some u → ∀ ws ∈ d.workspaces, ws.userId = v →
      ∀ f ∈ d.files, f.workspaceProjectId = ws.id → f.id ≠ id := by
    rintro id hid ws hws rfl f hf hwid rfl
    exact huv (Option.some.inj (hid.symm.trans (ho.files f hf ws hws hwid.symm)))
  cases h with
  | nil => exact .refl v d
  | insertWorkspace hu ht hnew =>
    exact ⟨filter_append_of_ne (by simp [hu, huv]), rfl, fun _ _ _ => rfl⟩
  | updateWorkspace ht =>
    refine ⟨filter_map_of_ne (fun ws _ => by split <;> rfl) fun ws hws hv => ?_, rfl,
      fun _ _ _ => rfl⟩
    rw [if_neg (hworkspace ht ws hws hv)]
  | deleteWorkspace ht hf hch hfiles hchats =>
    refine ⟨filter_filter_of_ne fun ws hws hv => ?_, filter_map_of_ne (fun c _ => by split <;> rfl)
      fun c hc hv => ?_, fun ws hws hv => filter_filter_of_ne fun f hmem hwid => ?_⟩
    · simpa using hworkspace ht ws hws (of_decide_eq_true hv)
    · rw [if_neg fun hin => hchat (hch _ hin) c hc hv rfl]
    · simpa using fun hin => hfile (hf _ hin) ws hws hv f hmem (of_decide_eq_true hwid) rfl
  | insertFile ht hw hu hnew =>
    refine ⟨rfl, rfl, fun ws hws hv => filter_append_of_ne ?_⟩
    simpa using (hworkspace hu ws hws hv).symm
  | deleteFile ht =>
    refine ⟨rfl, rfl, fun ws hws hv => filter_filter_of_ne fun f hmem hwid => ?_⟩
    simpa using hfile ht ws hws hv f hmem (of_decide_eq_true hwid)
  | insertChat hu ht hw hnew =>
    exact ⟨rfl, filter_append_of_ne (by simp [hu, huv]), fun _ _ _ => rfl⟩
  | updateChat ht hw =>
    refine ⟨rfl, filter_map_of_ne (fun c _ => by split <;> rfl) fun c hc hv => ?_, fun _ _ _ => rfl⟩
    rw [if_neg (hchat ht c hc hv)]
  | deleteChat ht =>
    refine ⟨rfl, filter_filter_of_ne fun c hc hv => ?_, fun _ _ _ => rfl⟩
    simpa using hchat ht c hc (of_decide_eq_true hv)

end Commits

end ChatBackend.Workspaces.Binding
