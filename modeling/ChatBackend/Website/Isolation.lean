import ChatBackend.Website.Files

/-!
# Isolation of the site tools

A call of a site tool works on the project of a user and a name: what it changes is there
(`execute_frame`), and what it answers depends on what is there (`execute_agree`).
-/

namespace ChatBackend.Website

open Chat (ToolName)

/-! ## What a call changes -/

/-- The constraints of the tables: the identifiers of projects are theirs alone, and a file has a
project. -/
structure Tidy (d : SiteDb) : Prop where
  projectIds : ∀ p ∈ d.projects, p.id < d.nextProject
  projects : (d.projects.map Project.id).Nodup
  owners : ∀ f ∈ d.files, f.projectId < d.nextProject

/-- Only the project of a user and a name has changed, and its files. -/
structure Frame (u : ℕ) (ext : String) (d d' : SiteDb) : Prop where
  projects : (d'.projects.filter fun p => p.key ≠ (u, ext)) = d.projects.filter fun p => p.key ≠ (u, ext)
  own : ∀ p, d.findProject u ext = some p → d'.findProject u ext = some p
  files : ∀ pid, (∀ p, d'.findProject u ext = some p → p.id ≠ pid) → d'.filesOf pid = d.filesOf pid

/-- Tables with the same project of a user and a name, with the same files, and the same identifier
for the next project. -/
structure Agree (u : ℕ) (ext : String) (d₁ d₂ : SiteDb) : Prop where
  tidy : Tidy d₁ ∧ Tidy d₂
  next : d₁.nextProject = d₂.nextProject
  project : d₁.findProject u ext = d₂.findProject u ext
  files : ∀ p, d₁.findProject u ext = some p → d₁.filesOf p.id = d₂.filesOf p.id

section Calls

variable {env : SiteEnv} {settings : SiteSettings} {d d' d'' d₁ d₂ : SiteDb} {pid : ℕ} {row : SiteFile}
  {u : ℕ} {ext path : String}

theorem Frame.refl (u : ℕ) (ext : String) (d : SiteDb) : Frame u ext d d :=
  ⟨rfl, fun _ h => h, fun _ _ => rfl⟩

theorem Frame.trans (h : Frame u ext d d') (h' : Frame u ext d' d'') : Frame u ext d d'' :=
  ⟨h'.projects.trans h.projects, fun p hp => h'.own p (h.own p hp), fun pid hpid =>
    (h'.files pid hpid).trans (h.files pid fun p hp => hpid p (h'.own p hp))⟩

/-- Only the files of a project have changed. -/
structure Touches (pid : ℕ) (d d' : SiteDb) : Prop where
  projects : d'.projects = d.projects
  next : d'.nextProject = d.nextProject
  files : ∀ pid', pid' ≠ pid → d'.filesOf pid' = d.filesOf pid'
  mem : ∀ f ∈ d'.files, f ∈ d.files ∨ f.projectId = pid

theorem Touches.refl (pid : ℕ) (d : SiteDb) : Touches pid d d :=
  ⟨rfl, rfl, fun _ _ => rfl, fun _ hf => .inl hf⟩

theorem touches_updateFile (row : SiteFile) : Touches row.projectId d (d.updateFile row) := by
  refine ⟨rfl, rfl, fun pid' hne => ?_, fun f hf => ?_⟩
  · rw [filesOf_updateFile]
    refine (List.map_congr_left fun f hf => if_neg fun h => hne ?_).trans (List.map_id _)
    have hpid : f.projectId = pid' := by simpa using (List.mem_filter.1 hf).2
    exact hpid.symm.trans (Prod.mk.inj h).1
  · obtain ⟨g, hg, rfl⟩ := List.mem_map.1 hf
    by_cases h : g.key = row.key
    · exact .inr (by rw [if_pos h])
    · rw [if_neg h]
      exact .inl hg

theorem touches_insertFile (row : SiteFile) : Touches row.projectId d (d.insertFile row) := by
  refine ⟨rfl, rfl, fun pid' hne => ?_, fun f hf => ?_⟩
  · rw [filesOf_insertFile, if_neg (Ne.symm hne), List.append_nil]
  · exact (List.mem_append.1 hf).imp_right fun h => by rw [List.mem_singleton.1 h]

theorem touches_deleteFile (row : SiteFile) : Touches row.projectId d (d.deleteFile row) := by
  refine ⟨rfl, rfl, fun pid' hne => ?_, fun f hf => .inl (List.mem_filter.1 hf).1⟩
  rw [filesOf_deleteFile]
  refine List.filter_eq_self.2 fun f hf => decide_eq_true fun h => hne ?_
  have hpid : f.projectId = pid' := by simpa using (List.mem_filter.1 hf).2
  exact hpid.symm.trans (Prod.mk.inj h).1

theorem writeFile_touches (content : List UInt8) (contentType : String) :
    Touches pid d (writeFile settings pid path content contentType d).2 := by
  unfold writeFile
  split
  · exact .refl pid d
  split
  · exact .refl pid d
  rename_i normalized hpath
  simp only
  split
  · exact .refl pid d
  split
  · exact .refl pid d
  by_cases hcount : settings.previewMaxFiles < (projectStats pid d).fileCount +
      if (d.findFile pid normalized).isNone then 1 else 0
  · rw [if_pos hcount]
    exact .refl pid d
  · rw [if_neg hcount]
    cases hold : d.findFile pid normalized with
    | none =>
      exact touches_insertFile ⟨pid, normalized, content, contentType, content.length⟩
    | some old =>
      obtain rfl : old.projectId = pid := (Prod.mk.inj (Keyed.mem_of_get hold).2).1
      exact touches_updateFile
        { old with content := content, contentType := contentType, size := content.length }

theorem deleteFile_touches : Touches pid d (deleteFile pid path d).2 := by
  unfold deleteFile
  split
  · exact .refl pid d
  split
  · exact .refl pid d
  · rename_i old hold
    obtain rfl : old.projectId = pid := (Prod.mk.inj (Keyed.mem_of_get hold).2).1
    exact touches_deleteFile old

/-- A change of the files of a project is one of the project of its user and name. -/
theorem Touches.frame {p : Project} (hd : Tidy d) (hp : d.findProject u ext = some p)
    (h : Touches p.id d d') : Tidy d' ∧ Frame u ext d d' := by
  have hfind : d'.findProject u ext = some p := by
    rw [SiteDb.findProject, h.projects]
    exact hp
  refine ⟨⟨?_, ?_, fun f hf => ?_⟩, by rw [h.projects], fun q hq => ?_, fun pid hpid => ?_⟩
  · rw [h.projects, h.next]
    exact hd.projectIds
  · rw [h.projects]
    exact hd.projects
  · rw [h.next]
    obtain hf | hf := h.mem f hf
    · exact hd.owners f hf
    · rw [hf]
      exact hd.projectIds p (Keyed.mem_of_get hp).1
  · rw [hfind, ← hp, hq]
  · exact h.files pid (hpid p hfind).symm

theorem Tidy.addProject (hd : Tidy d) (hnone : d.findProject u ext = none) :
    Tidy (d.addProject u ext) ∧ Frame u ext d (d.addProject u ext) := by
  refine ⟨⟨fun p hp => ?_, ?_, fun f hf => Nat.lt_succ_of_lt (hd.owners f hf)⟩, ?_, fun p hp => ?_,
    fun _ _ => rfl⟩
  · obtain hp | hp := List.mem_append.1 hp
    · exact Nat.lt_succ_of_lt (hd.projectIds p hp)
    · rw [List.mem_singleton.1 hp]
      exact Nat.lt_succ_self _
  · refine Keyed.nodup_append hd.projects (Keyed.get_eq_none.2 fun p hp hid => ?_)
    have hid : p.id = d.nextProject := hid
    exact Nat.lt_irrefl _ (hid ▸ hd.projectIds p hp)
  · simp [SiteDb.addProject, List.filter_append, Project.key]
  · rw [hnone] at hp
    cases hp

theorem resolveProject_frame (u : ℕ) (ext : String) (hd : Tidy d) :
    ∃ p, resolveProject u ext d = (.ok p, (resolveProject u ext d).2) ∧
      (resolveProject u ext d).2.findProject u ext = some p ∧ Tidy (resolveProject u ext d).2 ∧
      Frame u ext d (resolveProject u ext d).2 := by
  cases hfind : d.findProject u ext with
  | some p =>
    rw [resolveProject_some hfind]
    exact ⟨p, rfl, hfind, hd, .refl u ext d⟩
  | none =>
    rw [resolveProject_none hfind]
    exact ⟨_, rfl, (findProject_addProject hfind u ext).trans (if_pos rfl), hd.addProject hfind⟩

theorem Tidy.record (hd : Tidy d) (event : AuditEvent) : Tidy (d.record event) :=
  ⟨hd.projectIds, hd.projects, hd.owners⟩

theorem Frame.record (h : Frame u ext d d') (event : AuditEvent) : Frame u ext d (d'.record event) :=
  ⟨h.projects, h.own, h.files⟩

theorem writeFileTool_frame (args : Json) (sessionId : ℕ) (hd : Tidy d) :
    Tidy (writeFileTool env args u ext sessionId d).2 ∧
      Frame u ext d (writeFileTool env args u ext sessionId d).2 := by
  have hsame : Tidy d ∧ Frame u ext d d := ⟨hd, .refl u ext d⟩
  unfold writeFileTool
  split
  · exact hsame
  · exact hsame
  split
  · exact hsame
  rename_i bytes hbytes
  obtain ⟨p, hresolve, hfind, htidy, hframe⟩ := resolveProject_frame u ext hd
  rw [hresolve]
  simp only
  split
  · exact ⟨htidy, hframe⟩
  · exact ⟨htidy, hframe⟩
  rename_i raw contentType hraw hcontentType
  have htouches : Touches p.id (resolveProject u ext d).2
      (writeFile env.settings p.id raw bytes contentType (resolveProject u ext d).2).2 :=
    writeFile_touches bytes contentType
  obtain ⟨hwritten, hframe'⟩ := htouches.frame htidy hfind
  cases hwrite : writeFile env.settings p.id raw bytes contentType (resolveProject u ext d).2 with
  | mk r d' =>
    rw [hwrite] at hwritten hframe'
    cases r with
    | error e => exact ⟨hwritten, hframe.trans hframe'⟩
    | ok result => exact ⟨hwritten.record _, (hframe.trans hframe').record _⟩

theorem deleteTool_frame (args : Json) (sessionId : ℕ) (hd : Tidy d) :
    Tidy (deleteTool env args u ext sessionId d).2 ∧
      Frame u ext d (deleteTool env args u ext sessionId d).2 := by
  have hsame : Tidy d ∧ Frame u ext d d := ⟨hd, .refl u ext d⟩
  unfold deleteTool
  split
  · split <;> exact hsame
  rename_i p hfind
  split
  · exact hsame
  rename_i raw hraw
  have htouches : Touches p.id d (deleteFile p.id raw d).2 := deleteFile_touches
  obtain ⟨hdeleted, hframe⟩ := htouches.frame hd hfind
  cases hdelete : deleteFile p.id raw d with
  | mk r d' =>
    rw [hdelete] at hdeleted hframe
    cases r with
    | error e => exact ⟨hdeleted, hframe⟩
    | ok result => exact ⟨hdeleted.record _, hframe.record _⟩

theorem listTool_snd : (listTool env u ext d).2 = d := by
  unfold listTool
  split <;> rfl

/-- **What a call changes** is the project of its user and name, and its files. -/
theorem execute_frame (toolName : ToolName) (args : Json) (sessionId : ℕ) (hd : Tidy d) :
    Tidy (execute env toolName args u ext sessionId d).2 ∧
      Frame u ext d (execute env toolName args u ext sessionId d).2 := by
  unfold execute
  split
  · exact writeFileTool_frame args sessionId hd
  · rw [previewTool_snd]
    exact ⟨hd, .refl u ext d⟩
  · rw [listTool_snd]
    exact ⟨hd, .refl u ext d⟩
  · rw [readTool_snd]
    exact ⟨hd, .refl u ext d⟩
  · exact deleteTool_frame args sessionId hd
  · exact ⟨hd, .refl u ext d⟩

/-! ## What a call depends on -/

/-- A file of a project is found among its files. -/
theorem findFile_eq (d : SiteDb) (pid : ℕ) (path : String) :
    d.findFile pid path = Keyed.get SiteFile.key (d.filesOf pid) (pid, path) := by
  rw [SiteDb.findFile, Keyed.get, Keyed.get, SiteDb.filesOf, List.find?_filter]
  congr 1
  funext f
  by_cases h : f.key = (pid, path)
  · have hpid : f.projectId = pid := (Prod.mk.inj h).1
    simp [h, hpid]
  · simp [h]

/-- The same files of a project are changed alike. -/
theorem writeFile_congr (content : List UInt8) (contentType : String)
    (h : d₁.filesOf pid = d₂.filesOf pid) :
    (writeFile settings pid path content contentType d₁).1 =
        (writeFile settings pid path content contentType d₂).1 ∧
      (writeFile settings pid path content contentType d₁).2.filesOf pid =
        (writeFile settings pid path content contentType d₂).2.filesOf pid := by
  have hfind : ∀ path, d₁.findFile pid path = d₂.findFile pid path := by
    intro path
    rw [findFile_eq, findFile_eq, h]
  have hstats : projectStats pid d₁ = projectStats pid d₂ := by rw [projectStats, projectStats, h]
  unfold writeFile
  rw [hstats]
  simp only [hfind]
  split
  · exact ⟨rfl, h⟩
  split
  · exact ⟨rfl, h⟩
  rename_i normalized hpath
  split
  · exact ⟨rfl, h⟩
  split
  · exact ⟨rfl, h⟩
  by_cases hcount : settings.previewMaxFiles < (projectStats pid d₂).fileCount +
      if (d₂.findFile pid normalized).isNone then 1 else 0
  · rw [if_pos hcount, if_pos hcount]
    exact ⟨rfl, h⟩
  · rw [if_neg hcount, if_neg hcount]
    cases d₂.findFile pid normalized with
    | none => simp [projectStats, filesOf_insertFile, h]
    | some old => simp [projectStats, filesOf_updateFile, h]

theorem deleteFile_congr (h : d₁.filesOf pid = d₂.filesOf pid) :
    (deleteFile pid path d₁).1 = (deleteFile pid path d₂).1 ∧
      (deleteFile pid path d₁).2.filesOf pid = (deleteFile pid path d₂).2.filesOf pid := by
  have hfind : ∀ path, d₁.findFile pid path = d₂.findFile pid path := by
    intro path
    rw [findFile_eq, findFile_eq, h]
  have hstats : projectStats pid d₁ = projectStats pid d₂ := by rw [projectStats, projectStats, h]
  unfold deleteFile
  rw [hstats]
  simp only [hfind]
  split
  · exact ⟨rfl, h⟩
  rename_i normalized hpath
  cases d₂.findFile pid normalized with
  | none => exact ⟨rfl, h⟩
  | some old => simp [projectStats, filesOf_deleteFile, h]

theorem Agree.record (h : Agree u ext d₁ d₂) (event : AuditEvent) :
    Agree u ext (d₁.record event) (d₂.record event) :=
  ⟨⟨h.tidy.1.record _, h.tidy.2.record _⟩, h.next, h.project, h.files⟩

/-- The same change of the files of the project. -/
theorem Agree.touches {p : Project} {d₁' d₂' : SiteDb} (h : Agree u ext d₁ d₂)
    (hp : d₁.findProject u ext = some p) (h₁ : Touches p.id d₁ d₁') (h₂ : Touches p.id d₂ d₂')
    (hfiles : d₁'.filesOf p.id = d₂'.filesOf p.id) : Agree u ext d₁' d₂' := by
  have hfind : ∀ {d d' : SiteDb}, Touches p.id d d' → d'.findProject u ext = d.findProject u ext := by
    intro d d' ht
    rw [SiteDb.findProject, ht.projects]
    rfl
  refine ⟨⟨(h₁.frame h.tidy.1 hp).1, (h₂.frame h.tidy.2 (h.project ▸ hp)).1⟩, ?_, ?_, fun q hq => ?_⟩
  · rw [h₁.next, h₂.next, h.next]
  · rw [hfind h₁, hfind h₂, h.project]
  · rw [hfind h₁, hp] at hq
    obtain rfl := Option.some.inj hq
    exact hfiles

theorem Agree.resolveProject (h : Agree u ext d₁ d₂) :
    ∃ p, Website.resolveProject u ext d₁ = (.ok p, (Website.resolveProject u ext d₁).2) ∧
      Website.resolveProject u ext d₂ = (.ok p, (Website.resolveProject u ext d₂).2) ∧
      (Website.resolveProject u ext d₁).2.findProject u ext = some p ∧
      Agree u ext (Website.resolveProject u ext d₁).2 (Website.resolveProject u ext d₂).2 := by
  have hproject := h.project
  cases hfind : d₁.findProject u ext with
  | some p =>
    rw [hfind] at hproject
    rw [resolveProject_some hfind, resolveProject_some hproject.symm]
    exact ⟨p, rfl, rfl, hfind, h⟩
  | none =>
    rw [hfind] at hproject
    have hfind₁ : (d₁.addProject u ext).findProject u ext = some ⟨d₁.nextProject, u, ext⟩ :=
      (findProject_addProject hfind u ext).trans (if_pos rfl)
    have hfind₂ : (d₂.addProject u ext).findProject u ext = some ⟨d₂.nextProject, u, ext⟩ :=
      (findProject_addProject hproject.symm u ext).trans (if_pos rfl)
    rw [resolveProject_none hfind, resolveProject_none hproject.symm]
    refine ⟨⟨d₁.nextProject, u, ext⟩, rfl, by rw [h.next], hfind₁, ⟨(h.tidy.1.addProject hfind).1,
      (h.tidy.2.addProject hproject.symm).1⟩, congrArg (· + 1) h.next, ?_, fun p hp => ?_⟩
    · rw [hfind₁, hfind₂, h.next]
    · rw [hfind₁] at hp
      obtain rfl := Option.some.inj hp
      -- a new project has no files
      have hnil : ∀ {d : SiteDb}, Tidy d → (d.addProject u ext).filesOf d.nextProject = [] := by
        intro d hd
        refine List.filter_eq_nil_iff.2 fun f hf hpid => ?_
        have hpid : f.projectId = d.nextProject := by simpa using hpid
        exact Nat.lt_irrefl _ (hpid ▸ hd.owners f hf)
      rw [hnil h.tidy.1, h.next, hnil h.tidy.2]

theorem writeFileTool_agree (args : Json) (sessionId : ℕ) (h : Agree u ext d₁ d₂) :
    (writeFileTool env args u ext sessionId d₁).1 = (writeFileTool env args u ext sessionId d₂).1 ∧
      Agree u ext (writeFileTool env args u ext sessionId d₁).2
        (writeFileTool env args u ext sessionId d₂).2 := by
  unfold writeFileTool
  split
  · exact ⟨rfl, h⟩
  · exact ⟨rfl, h⟩
  split
  · exact ⟨rfl, h⟩
  rename_i bytes hbytes
  obtain ⟨p, hres₁, hres₂, hfind, hagree⟩ := h.resolveProject
  rw [hres₁, hres₂]
  simp only
  split
  · exact ⟨rfl, hagree⟩
  · exact ⟨rfl, hagree⟩
  rename_i raw contentType hraw hcontentType
  generalize (resolveProject u ext d₁).2 = e₁ at hfind hagree ⊢
  generalize (resolveProject u ext d₂).2 = e₂ at hagree ⊢
  have hcongr : (writeFile env.settings p.id raw bytes contentType e₁).1 =
      (writeFile env.settings p.id raw bytes contentType e₂).1 ∧
      (writeFile env.settings p.id raw bytes contentType e₁).2.filesOf p.id =
        (writeFile env.settings p.id raw bytes contentType e₂).2.filesOf p.id :=
    writeFile_congr bytes contentType (hagree.files p hfind)
  have hwritten : Agree u ext (writeFile env.settings p.id raw bytes contentType e₁).2
      (writeFile env.settings p.id raw bytes contentType e₂).2 :=
    hagree.touches hfind (writeFile_touches _ _) (writeFile_touches _ _) hcongr.2
  obtain ⟨hresult, -⟩ := hcongr
  cases hw₁ : writeFile env.settings p.id raw bytes contentType e₁ with
  | mk r₁ d₁' =>
    cases hw₂ : writeFile env.settings p.id raw bytes contentType e₂ with
    | mk r₂ d₂' =>
      rw [hw₁, hw₂] at hresult hwritten
      obtain rfl : r₁ = r₂ := hresult
      cases r₁ with
      | error e => exact ⟨rfl, hwritten⟩
      | ok result => exact ⟨rfl, hwritten.record _⟩

theorem deleteTool_agree (args : Json) (sessionId : ℕ) (h : Agree u ext d₁ d₂) :
    (deleteTool env args u ext sessionId d₁).1 = (deleteTool env args u ext sessionId d₂).1 ∧
      Agree u ext (deleteTool env args u ext sessionId d₁).2
        (deleteTool env args u ext sessionId d₂).2 := by
  unfold deleteTool
  rw [← h.project]
  cases hfind : d₁.findProject u ext with
  | none =>
    simp only
    split <;> exact ⟨rfl, h⟩
  | some p =>
    simp only
    split
    · exact ⟨rfl, h⟩
    rename_i raw hraw
    have hcongr : (deleteFile p.id raw d₁).1 = (deleteFile p.id raw d₂).1 ∧
        (deleteFile p.id raw d₁).2.filesOf p.id = (deleteFile p.id raw d₂).2.filesOf p.id :=
      deleteFile_congr (h.files p hfind)
    have hdeleted : Agree u ext (deleteFile p.id raw d₁).2 (deleteFile p.id raw d₂).2 :=
      h.touches hfind deleteFile_touches deleteFile_touches hcongr.2
    obtain ⟨hresult, -⟩ := hcongr
    cases hd₁ : deleteFile p.id raw d₁ with
    | mk r₁ d₁' =>
      cases hd₂ : deleteFile p.id raw d₂ with
      | mk r₂ d₂' =>
        rw [hd₁, hd₂] at hresult hdeleted
        obtain rfl : r₁ = r₂ := hresult
        cases r₁ with
        | error e => exact ⟨rfl, hdeleted⟩
        | ok result => exact ⟨rfl, hdeleted.record _⟩

theorem previewTool_agree (args : Json) (h : Agree u ext d₁ d₂) :
    (previewTool env args u ext d₁).1 = (previewTool env args u ext d₂).1 := by
  unfold previewTool
  rw [← h.project]
  split
  · rfl
  · split <;> rfl

theorem listTool_agree (h : Agree u ext d₁ d₂) :
    (listTool env u ext d₁).1 = (listTool env u ext d₂).1 := by
  unfold listTool
  rw [← h.project]
  cases hfind : d₁.findProject u ext with
  | none => rfl
  | some p =>
    have hfiles := h.files p hfind
    simp only [listFiles, projectStats, hfiles]

theorem readTool_agree (args : Json) (h : Agree u ext d₁ d₂) :
    (readTool env args u ext d₁).1 = (readTool env args u ext d₂).1 := by
  unfold readTool
  rw [← h.project]
  cases hfind : d₁.findProject u ext with
  | none => rfl
  | some p =>
    have hread : ∀ raw, readFile p.id raw d₁ = readFile p.id raw d₂ := by
      intro raw
      rw [readFile, readFile]
      split
      · rfl
      · rw [findFile_eq, findFile_eq, h.files p hfind]
    simp only [hread]
    split
    · rfl
    · split <;> rfl

/-- **What a call depends on** is the project of its user and name, and its files. -/
theorem execute_agree (toolName : ToolName) (args : Json) (sessionId : ℕ) (h : Agree u ext d₁ d₂) :
    (execute env toolName args u ext sessionId d₁).1 = (execute env toolName args u ext sessionId d₂).1 ∧
      Agree u ext (execute env toolName args u ext sessionId d₁).2
        (execute env toolName args u ext sessionId d₂).2 := by
  unfold execute
  split
  · exact writeFileTool_agree args sessionId h
  · rw [previewTool_snd, previewTool_snd]
    exact ⟨previewTool_agree args h, h⟩
  · rw [listTool_snd, listTool_snd]
    exact ⟨listTool_agree h, h⟩
  · rw [readTool_snd, readTool_snd]
    exact ⟨readTool_agree args h, h⟩
  · exact deleteTool_agree args sessionId h
  · exact ⟨rfl, h⟩

end Calls

end ChatBackend.Website
