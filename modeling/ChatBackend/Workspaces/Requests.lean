import ChatBackend.Workspaces.Integrity

/-!
# Interleaved requests about workspaces and chats

Every request keeps the protocol of `May`, so any interleaving of any requests does.

* `bindings_hold`: in every state that is committed, a chat that is bound is bound to a workspace of
  its user, and a file has its workspace; a flush that comes after the deletion of the workspace fails.
* `workspace_deleted`: a deletion that is answered has deleted the files and unbound the chats, which
  stay as they are otherwise.
* `bindings_apart`: the rows of a user change by requests of this user only.
-/

namespace ChatBackend.Workspaces.Binding

open Prog Store

abbrev BindingOwn : Type := Own BindingDb BindingOp Taken Unit

theorem Owned.mono {t t' : Taken} {d : BindingDb} (h : Owned t d) (ht : t ≤ t') : Owned t' d :=
  ⟨fun ws hws => Taken.user_mono ht (h.workspaces ws hws),
    fun c hc => Taken.user_mono ht (h.chats c hc),
    fun f hf ws hws hid => Taken.user_mono ht (h.files f hf ws hws hid)⟩

/-- The protocol of requests of the users. -/
def binding {ι : Type} (user : ι → ℕ) : Protocol bindingStore ι where
  inv t d := Owned t d ∧ d.Bound
  may i t d log := Owned t d ∧ May t d (user i) log
  test _ _ _ := True
  inv_gen hg h := ⟨h.1.mono hg, h.2⟩
  inv_commit h hm := ⟨hm.2.owned h.1 h.2, hm.2.bound h.1 h.2⟩

/-- A program that returns, returns like this. -/
def ends {α : Type} (A : α → BindingOwn → Prop) (o : Except BindingError α) (l : BindingOwn) : Prop :=
  ∀ a, o = .ok a → A a l

section Rules

variable {ι α β : Type} {user : ι → ℕ} {i : ι} {l l' : BindingOwn}

/-- The open transaction is one that may commit. -/
abbrev Ready (user : ι → ℕ) (i : ι) (l : BindingOwn) : Prop := May l.gen l.db (user i) l.log

theorem ready_stable : Protocol.Stable (binding user) i (Ready user i) := by
  intro l l' hinv h hr
  cases hr with
  | gen hg => exact h.mono hg
  | commit hj hc hm => exact h.commit hm.2 hc

/-- The user for whom an identifier was taken. -/
theorem user_relies {id u : ℕ} (h : l.gen.user id = some u) (he : (binding user).Relies i l l') :
    l'.gen.user id = some u :=
  Taken.user_mono he.own.2.2.2 h

theorem rg_error {x : BindingError} {A : α → BindingOwn → Prop} :
    (binding user).rg i (ends A) (.raise x : BindingProg α) l :=
  Protocol.rg_raise fun _ _ _ _ h => by cases h

/-- The rule for sequencing. -/
theorem rg_then {p : BindingProg α} {f : α → BindingProg β} {A : α → BindingOwn → Prop}
    {B : β → BindingOwn → Prop} (hinv : (binding user).inv l.gen l.db)
    (hp : (binding user).rg i (ends A) p l)
    (hf : ∀ a l', (binding user).inv l'.gen l'.db → A a l' → (binding user).rg i (ends B) (f a) l') :
    (binding user).rg i (ends B) (p.bind f) l := by
  refine Protocol.rg_bind hinv (Protocol.rg_mono (fun o l' hi h => ?_) hp)
  cases o with
  | ok a => exact hf a l' hi (h a rfl)
  | error x => exact rg_error

/-- The rule for a statement. -/
theorem rg_bindingStmt {s : BindingStmt} {k : s.Resp → BindingProg α}
    {Q : Except BindingError α → BindingOwn → Prop}
    (h : ∀ l₁, (binding user).Relies i l l₁ → (binding user).inv l₁.gen l₁.db →
      (binding user).rg i Q (k (s.run l₁.gen (l₁.view bindingStore)).1)
        ⟨(s.run l₁.gen (l₁.view bindingStore)).2.2, l₁.db,
          l₁.log ++ (s.run l₁.gen (l₁.view bindingStore)).2.1, (), l₁.done⟩) :
    (binding user).rg i Q (.act (.stmt s) k) l := by
  refine Protocol.rg_stmt fun l₁ he hi _ r ops gen mem hx => ?_
  have hrun : s.run l₁.gen (l₁.view bindingStore) = (r, ops, gen) := hx
  have := h l₁ he hi
  rw [hrun] at this
  exact this

/-- The rule for a statement that reads, in a transaction that has written nothing. -/
theorem rg_read {s : BindingStmt} {k : s.Resp → BindingProg α}
    {Q : Except BindingError α → BindingOwn → Prop} (hlog : l.log = [])
    (hs : ∀ t d, (s.run t d).2 = ([], t))
    (h : ∀ l₁, (binding user).Relies i l l₁ → (binding user).inv l₁.gen l₁.db → l₁.log = [] →
      l₁.done = l.done → (binding user).rg i Q (k (s.run l₁.gen l₁.db).1) l₁) :
    (binding user).rg i Q (.act (.stmt s) k) l := by
  refine rg_bindingStmt fun l₁ he hi => ?_
  have hlog₁ : l₁.log = [] := he.own.1.trans hlog
  have hview : l₁.view bindingStore = l₁.db := by rw [Own.view, hlog₁, Store.view_nil]
  rw [hs, hview, List.append_nil]
  exact h l₁ he hi hlog₁ he.own.2.2.1

/-- The rule for a commit. -/
theorem rg_commits {f : Unit → BindingProg α} {Q : Except BindingError α → BindingOwn → Prop}
    (hinv : (binding user).inv l.gen l.db) (hready : Ready user i l)
    (h : ∀ l', (binding user).inv l'.gen l'.db → l'.log = [] → l'.done = l.done ++ [l.log] →
      (binding user).rg i Q (f ()) l') :
    (binding user).rg i Q (TxProg.commit.bind f) l := by
  refine Protocol.rg_commit fun l₁ he hi _ => ?_
  have hmay : Ready user i l₁ := ready_stable.relies hinv hready he
  refine ⟨⟨hi.1, hmay⟩, h _ ⟨hmay.owned hi.1 hi.2, hmay.bound hi.1 hi.2⟩ rfl ?_⟩
  rw [he.own.2.2.1, he.own.1]

/-- A program whose transaction is over. -/
theorem rg_done {a : α} (hlog : l.log = []) :
    (binding user).rg i (ends fun _ l' => l'.log = []) (.ret a : BindingProg α) l :=
  Protocol.rg_ret fun _ he _ _ _ => he.own.1.trans hlog

/-- A commit, and the answer. -/
theorem rg_answer {a : α} (hinv : (binding user).inv l.gen l.db) (hready : Ready user i l) :
    (binding user).rg i (ends fun _ l' => l'.log = [])
      (TxProg.commit.bind fun _ => (.ret a : BindingProg α)) l :=
  rg_commits hinv hready fun _ _ hlog _ => rg_done hlog

/-- A flush whose transaction may commit where it succeeds. -/
theorem rg_flushed {p : BindingProg (Except FlushError α)} (hinv : (binding user).inv l.gen l.db)
    (hp : (binding user).rg i (ends fun r l' => ∀ a, r = .ok a → Ready user i l') p l) :
    (binding user).rg i (ends fun _ l' => Ready user i l') (flushed p) l := by
  refine rg_then hinv hp fun r l' hi hr => ?_
  cases r with
  | ok a => exact Protocol.rg_ret fun l'' he _ _ _ => ready_stable.relies hi (hr a rfl) he
  | error e => exact rg_error

end Rules

/-! ## Requests -/

section Requests

variable {ι : Type} {user : ι → ℕ} {i : ι} {l : BindingOwn}

theorem requireWorkspace_rg {w : ℕ} (hlog : l.log = []) :
    (binding user).rg i (ends fun ws l' => l'.log = [] ∧ ws.id = w ∧ l'.gen.user w = some (user i))
      (requireWorkspace w (user i)) l := by
  refine rg_read hlog (fun _ _ => rfl) fun l₁ he hi hlog₁ _ => ?_
  simp only [BindingStmt.run]
  cases hfind : l₁.db.workspaces.find? fun ws => ws.id = w ∧ ws.userId = user i with
  | none => exact rg_error
  | some ws =>
    obtain ⟨hid, huser⟩ : ws.id = w ∧ ws.userId = user i := by simpa using List.find?_some hfind
    have htaken := hi.1.workspaces ws (List.mem_of_find?_eq_some hfind)
    rw [hid, huser] at htaken
    refine Protocol.rg_ret fun l₂ he₂ _ a ha => ?_
    obtain rfl := Except.ok.inj ha
    exact ⟨he₂.own.1.trans hlog₁, hid, user_relies htaken he₂⟩

theorem checkTarget_rg {target : Option ℕ} (hlog : l.log = []) :
    (binding user).rg i (ends fun _ l' => l'.log = [] ∧ l.gen ≤ l'.gen ∧
      ∀ w, target = some w → l'.gen.user w = some (user i)) (checkTarget target (user i)) l := by
  cases target with
  | none => exact Protocol.rg_ret fun l' he _ _ _ =>
      ⟨he.own.1.trans hlog, he.own.2.2.2, fun w hw => by cases hw⟩
  | some w =>
    refine rg_read hlog (fun _ _ => rfl) fun l₁ he₁ hi hlog₁ _ => ?_
    simp only [BindingStmt.run, ret_bind]
    cases hfind : l₁.db.workspaces.find? fun ws => ws.id = w ∧ ws.userId = user i with
    | none => exact rg_error
    | some ws =>
      obtain ⟨hid, huser⟩ : ws.id = w ∧ ws.userId = user i := by simpa using List.find?_some hfind
      have htaken := hi.1.workspaces ws (List.mem_of_find?_eq_some hfind)
      rw [hid, huser] at htaken
      refine Protocol.rg_ret fun l₂ he₂ _ _ _ => ⟨he₂.own.1.trans hlog₁,
        he₁.own.2.2.2.trans he₂.own.2.2.2, fun w' hw' => ?_⟩
      obtain rfl := Option.some.inj hw'
      exact user_relies htaken he₂

theorem create_rg {name : String} {description instructions : Option String} {now : ℕ}
    (hlog : l.log = []) :
    (binding user).rg i (ends fun _ l' => l'.log = [])
      (create (user i) name description instructions now) l := by
  refine rg_bindingStmt fun l₁ he hi => ?_
  have hlog₁ : l₁.log = [] := he.own.1.trans hlog
  simp only [BindingStmt.run, hlog₁, List.nil_append]
  refine rg_answer ((binding user).inv_gen (l₁.gen.le_take _) hi) ?_
  exact .insertWorkspace rfl (l₁.gen.user_take _) fun ws hws hid =>
    (Taken.lt_next (hi.1.workspaces ws hws)).ne hid

/-- A flush that writes what may be committed, or fails. -/
theorem rg_flush {s : BindingStmt} {α : Type} {p : BindingProg (Except FlushError α)}
    {f : s.Resp → Except FlushError α} (hinv : (binding user).inv l.gen l.db)
    (hp : p = .act (.stmt s) fun r => .ret (f r))
    (hs : ∀ l₁, (binding user).Relies i l l₁ → (binding user).inv l₁.gen l₁.db →
      ∀ a, f (s.run l₁.gen (l₁.view bindingStore)).1 = .ok a →
        May (s.run l₁.gen (l₁.view bindingStore)).2.2 l₁.db (user i)
          (l₁.log ++ (s.run l₁.gen (l₁.view bindingStore)).2.1)) :
    (binding user).rg i (ends fun _ l' => Ready user i l') (flushed p) l := by
  subst hp
  refine rg_flushed hinv (rg_bindingStmt fun l₁ he hi => ?_)
  refine Protocol.rg_ret fun l₂ he₂ _ r hr a ha => ready_stable.relies ?_ ?_ he₂
  · exact (binding user).inv_gen (s.le_run ..) hi
  · obtain rfl := Except.ok.inj hr
    exact hs l₁ he hi a ha

theorem update_rg {w : ℕ} {req : WorkspaceUpdate} {now : ℕ}
    (hinv : (binding user).inv l.gen l.db) (hlog : l.log = []) :
    (binding user).rg i (ends fun _ l' => l'.log = []) (update w (user i) req now) l := by
  refine rg_then hinv (requireWorkspace_rg hlog) fun ws l₁ hi₁ h₁ => ?_
  obtain ⟨hlog₁, rfl, htaken⟩ := h₁
  refine rg_then hi₁ (rg_flush (s := .flushWorkspace ws.id _) (f := id) hi₁ rfl fun l₂ he hi₂ a ha => ?_)
    fun _ l₃ hi₃ hready => rg_answer hi₃ hready
  have hlog₂ : l₂.log = [] := he.own.1.trans hlog₁
  simp only [BindingStmt.run, hlog₂, List.nil_append, id] at ha ⊢
  split at ha
  · rename_i hthere
    rw [if_pos hthere]
    exact .updateWorkspace (user_relies htaken he)
  · cases ha

/-- A new identifier is no identifier of a row. -/
theorem new_of_inv {t : Taken} {d : BindingDb} (hinv : (binding user).inv t d) :
    (∀ ws ∈ d.workspaces, ws.id ≠ t.next) ∧ (∀ f ∈ d.files, f.id ≠ t.next) ∧
      ∀ c ∈ d.chats, c.id ≠ t.next := by
  refine ⟨fun ws hws => (Taken.lt_next (hinv.1.workspaces ws hws)).ne, fun f hf => ?_,
    fun c hc => (Taken.lt_next (hinv.1.chats c hc)).ne⟩
  obtain ⟨ws, hws, hid⟩ := hinv.2.files f hf
  exact (Taken.lt_next (hinv.1.files f hf ws hws hid)).ne

theorem refers_some {d : BindingDb} {target : Option ℕ} (h : d.refers target = true) {w : ℕ}
    (hw : target = some w) : d.Has w := by
  subst hw
  simpa [BindingDb.refers, BindingDb.Has] using h

theorem uploadFile_rg {settings : FileSettings} {w : ℕ} {req : UploadRequest}
    (hinv : (binding user).inv l.gen l.db) (hlog : l.log = []) :
    (binding user).rg i (ends fun _ l' => l'.log = []) (uploadFile settings w (user i) req) l := by
  refine rg_then hinv (requireWorkspace_rg hlog) fun ws l₁ hi₁ h₁ => ?_
  obtain ⟨hlog₁, -, htaken₁⟩ := h₁
  refine rg_read hlog₁ (fun _ _ => rfl) fun l₂ he₂ hi₂ hlog₂ _ => ?_
  simp only [BindingStmt.run, ret_bind]
  split
  · exact rg_error
  cases req.extracted with
  | error e => exact rg_error
  | ok extracted =>
    refine rg_read hlog₂ (fun _ _ => rfl) fun l₃ he₃ hi₃ hlog₃ _ => ?_
    simp only [BindingStmt.run, ret_bind]
    split
    · exact rg_error
    refine rg_then hi₃ (rg_flush (s := .insertFile w _ req extracted) (f := id) hi₃ rfl
      fun l₄ he₄ hi₄ a ha => ?_)
      fun _ l₅ hi₅ hready => rg_answer hi₅ hready
    have hlog₄ : l₄.log = [] := he₄.own.1.trans hlog₃
    have hview : l₄.view bindingStore = l₄.db := by rw [Own.view, hlog₄, Store.view_nil]
    have htaken := user_relies (user_relies (user_relies htaken₁ he₂) he₃) he₄
    simp only [BindingStmt.run, hlog₄, hview, List.nil_append, id] at ha ⊢
    split at ha
    · rename_i hthere
      rw [if_pos hthere]
      exact .insertFile (l₄.gen.user_take _) (refers_some hthere rfl)
        (Taken.user_mono (l₄.gen.le_take _) htaken) (new_of_inv hi₄).2.1
    · cases ha

theorem deleteFile_rg {w f : ℕ} (hinv : (binding user).inv l.gen l.db) (hlog : l.log = []) :
    (binding user).rg i (ends fun _ l' => l'.log = []) (deleteFile w (user i) f) l := by
  refine rg_then hinv (requireWorkspace_rg hlog) fun ws l₁ hi₁ h₁ => ?_
  obtain ⟨hlog₁, -, htaken₁⟩ := h₁
  refine rg_bindingStmt fun l₂ he₂ hi₂ => ?_
  have hlog₂ : l₂.log = [] := he₂.own.1.trans hlog₁
  have hview : l₂.view bindingStore = l₂.db := by rw [Own.view, hlog₂, Store.view_nil]
  simp only [BindingStmt.run, hlog₂, hview, List.nil_append]
  split
  · rename_i hthere
    obtain ⟨row, hrow, hfile⟩ := List.any_eq_true.1 hthere
    obtain ⟨rfl, hwid⟩ := of_decide_eq_true hfile
    obtain ⟨ws', hws', hid⟩ := hi₂.2.files row hrow
    have huser : ws'.userId = user i := Option.some.inj ((hi₂.1.workspaces ws' hws').symm.trans
      (hid.trans hwid ▸ user_relies htaken₁ he₂))
    refine rg_answer hi₂ (.deleteFile ?_)
    rw [hi₂.1.files row hrow ws' hws' hid, huser]
  · exact rg_commits hi₂ .nil fun _ _ _ _ => rg_error

/-- A flush binds to the workspace that has been checked. -/
theorem target_of_bindsTo {req : ChatUpdate} {now : ℕ} {session : ChatRow} {w : ℕ}
    (h : (session.changeTo (req.assign now session)).bindsTo = some w) : req.target = some w := by
  by_cases hset : req.setWorkspaceProjectId = true
  · by_cases hsame : req.workspaceProjectId = session.workspaceProjectId
    · simp [ChatChange.bindsTo, ChatRow.changeTo, ChatUpdate.assign, Byok.changed, hset, hsame] at h
    · simpa [ChatChange.bindsTo, ChatRow.changeTo, ChatUpdate.assign, Byok.changed, hset, hsame,
        ChatUpdate.target] using h
  · simp [ChatChange.bindsTo, ChatRow.changeTo, ChatUpdate.assign, Byok.changed, hset] at h

theorem renameOrPin_rg {sid : ℕ} {req : ChatUpdate} {now : ℕ} (hlog : l.log = []) :
    (binding user).rg i (ends fun _ l' => l'.log = []) (renameOrPin sid (user i) req now) l := by
  refine rg_read hlog (fun _ _ => rfl) fun l₁ he₁ hi₁ hlog₁ _ => ?_
  simp only [BindingStmt.run, ret_bind]
  cases hfind : l₁.db.chats.find? fun c => c.id = sid ∧ c.userId = user i with
  | none => exact rg_error
  | some session =>
    obtain ⟨hid, huser⟩ : session.id = sid ∧ session.userId = user i := by
      simpa using List.find?_some hfind
    have htaken := hi₁.1.chats session (List.mem_of_find?_eq_some hfind)
    rw [huser] at htaken
    refine rg_then hi₁ (checkTarget_rg hlog₁) fun _ l₂ hi₂ h₂ => ?_
    obtain ⟨hlog₂, hle, htarget⟩ := h₂
    refine rg_then hi₂ (rg_flush (s := .flushChat session.id _) (f := id) hi₂ rfl
      fun l₃ he₃ hi₃ a ha => ?_) fun _ l₄ hi₄ hready => rg_answer hi₄ hready
    have hlog₃ : l₃.log = [] := he₃.own.1.trans hlog₂
    have hview : l₃.view bindingStore = l₃.db := by rw [Own.view, hlog₃, Store.view_nil]
    simp only [BindingStmt.run, hlog₃, hview, List.nil_append, id] at ha ⊢
    split at ha
    · rename_i hthere
      rw [if_pos hthere]
      split at ha
      · rename_i hrefers
        rw [if_pos hrefers]
        refine .updateChat (user_relies (Taken.user_mono hle htaken) he₃) fun w hw =>
          ⟨refers_some hrefers hw, user_relies (htarget w (target_of_bindsTo hw)) he₃⟩
      · cases ha
    · cases ha

theorem createSession_rg {title : Option String} {target : Option ℕ} {now : ℕ}
    (hinv : (binding user).inv l.gen l.db) (hlog : l.log = []) :
    (binding user).rg i (ends fun _ l' => l'.log = []) (createSession (user i) title target now) l := by
  refine rg_then hinv (checkTarget_rg hlog) fun _ l₁ hi₁ h₁ => ?_
  obtain ⟨hlog₁, -, htarget⟩ := h₁
  refine rg_then hi₁ (rg_flush (s := .insertChat _ title target now) (f := id) hi₁ rfl
    fun l₂ he₂ hi₂ a ha => ?_)
    fun _ l₃ hi₃ hready => rg_answer hi₃ hready
  have hlog₂ : l₂.log = [] := he₂.own.1.trans hlog₁
  have hview : l₂.view bindingStore = l₂.db := by rw [Own.view, hlog₂, Store.view_nil]
  simp only [BindingStmt.run, hlog₂, hview, List.nil_append, id] at ha ⊢
  split at ha
  · rename_i hthere
    rw [if_pos hthere]
    refine .insertChat rfl (l₂.gen.user_take _) (fun w hw => ⟨refers_some hthere hw, ?_⟩)
      (new_of_inv hi₂).2.2
    exact Taken.user_mono (l₂.gen.le_take _) (user_relies (htarget w hw) he₂)
  · cases ha

theorem deleteChat_rg {sid : ℕ} (hlog : l.log = []) :
    (binding user).rg i (ends fun _ l' => l'.log = []) (deleteChat sid (user i)) l := by
  refine rg_bindingStmt fun l₁ he₁ hi₁ => ?_
  have hlog₁ : l₁.log = [] := he₁.own.1.trans hlog
  have hview : l₁.view bindingStore = l₁.db := by rw [Own.view, hlog₁, Store.view_nil]
  simp only [BindingStmt.run, hlog₁, hview, List.nil_append]
  split
  · rename_i hthere
    obtain ⟨row, hrow, hchat⟩ := List.any_eq_true.1 hthere
    obtain ⟨rfl, huser⟩ := of_decide_eq_true hchat
    refine rg_answer hi₁ (.deleteChat ?_)
    rw [hi₁.1.chats row hrow, huser]
  · exact rg_commits hi₁ .nil fun _ _ _ _ => rg_error

/-- The rows that a query finds are those with the ids that it finds. -/
theorem mem_map_id_filter {α : Type} {id : α → ℕ} {l : List α} {p : α → Bool}
    (hl : (l.map id).Nodup) {a : α} (ha : a ∈ l) :
    p a = true ↔ id a ∈ (l.filter p).map id := by
  constructor
  · intro hp
    exact List.mem_map_of_mem (List.mem_filter.2 ⟨ha, hp⟩)
  · intro hid
    obtain ⟨b, hb, heq⟩ := List.mem_map.1 hid
    obtain ⟨hmem, hp⟩ := List.mem_filter.1 hb
    rwa [List.inj_on_of_nodup_map hl hmem ha heq] at hp

/-- A deletion that answers has committed the deletion. -/
theorem delete_rg {w : ℕ} (hlog : l.log = []) :
    (binding user).rg i (ends fun _ l' => l'.log = [] ∧
      ∃ files chats, [BindingOp.deleteWorkspace w files chats] ∈ l'.done) (delete w (user i)) l := by
  refine rg_bindingStmt fun l₁ he₁ hi₁ => ?_
  have hlog₁ : l₁.log = [] := he₁.own.1.trans hlog
  have hview : l₁.view bindingStore = l₁.db := by rw [Own.view, hlog₁, Store.view_nil]
  simp only [BindingStmt.run, hlog₁, hview, List.nil_append]
  split
  · rename_i hthere
    obtain ⟨row, hrow, hworkspace⟩ := List.any_eq_true.1 hthere
    obtain ⟨rfl, huser⟩ := of_decide_eq_true hworkspace
    have htaken : l₁.gen.user row.id = some (user i) := by rw [hi₁.1.workspaces row hrow, huser]
    refine rg_commits hi₁ (.deleteWorkspace htaken (fun f hf => ?_) (fun c hc => ?_) (fun f hf => ?_)
      fun c hc => ?_) fun l₂ hi₂ hlog₂ hdone => ?_
    · obtain ⟨f', hf', rfl⟩ := List.mem_map.1 hf
      obtain ⟨hmem, hwid⟩ := List.mem_filter.1 hf'
      rw [hi₁.1.files f' hmem row hrow (of_decide_eq_true hwid).symm, huser]
    · obtain ⟨c', hc', rfl⟩ := List.mem_map.1 hc
      obtain ⟨hmem, hbound⟩ := List.mem_filter.1 hc'
      obtain ⟨ws, hws, hid, hown⟩ := hi₁.2.chats c' hmem row.id (of_decide_eq_true hbound)
      have hsame := hi₁.1.workspaces ws hws
      rw [hid, htaken, hown] at hsame
      rw [hi₁.1.chats c' hmem, ← hsame]
    · simpa [BindingDb.filesOf] using
        mem_map_id_filter (p := fun f => f.workspaceProjectId = row.id) hi₁.2.fileIds hf
    · simpa [BindingDb.chatsOf] using
        mem_map_id_filter (p := fun c => c.workspaceProjectId = some row.id) hi₁.2.chatIds hc
    · refine Protocol.rg_ret fun l₃ he₃ _ _ _ => ⟨he₃.own.1.trans hlog₂,
        (l₁.db.filesOf row.id).map (·.id), (l₁.db.chatsOf row.id).map (·.id), ?_⟩
      rw [he₃.own.2.2.1, hdone]
      exact List.mem_append_right _ (List.mem_singleton_self _)
  · exact rg_commits hi₁ .nil fun _ _ _ _ => rg_error

/-- The deletion that a request asks for has been committed. -/
def Deleted (c : BindingRequest) (done : List (List BindingOp)) : Prop :=
  ∀ w, c = .delete w → ∃ files chats, [BindingOp.deleteWorkspace w files chats] ∈ done

/-- **Every request keeps the protocol.** -/
theorem serve_rg (c : BindingRequest) (hinv : (binding user).inv l.gen l.db) (hlog : l.log = []) :
    (binding user).rg i (ends fun _ l' => Deleted c l'.done) (c.serve (user i)) l := by
  have hunit : ∀ {α : Type} {p : BindingProg α},
      (binding user).rg i (ends fun _ l' => l'.log = []) p l → (∀ w, c ≠ .delete w) →
      (binding user).rg i (ends fun _ l' => l'.log = [] ∧ Deleted c l'.done)
        (p.bind fun _ => (.ret () : BindingProg Unit)) l := by
    intro α p hp hc
    refine rg_then hinv hp fun _ l₁ _ hlog₁ => Protocol.rg_ret fun l₂ he _ _ _ => ?_
    exact ⟨he.own.1.trans hlog₁, fun w hw => absurd hw (hc w)⟩
  have hplain : ∀ {p : BindingProg Unit},
      (binding user).rg i (ends fun _ l' => l'.log = []) p l → (∀ w, c ≠ .delete w) →
      (binding user).rg i (ends fun _ l' => l'.log = [] ∧ Deleted c l'.done) p l :=
    fun hp hc => Protocol.rg_mono (fun _ _ _ h a ha => ⟨h a ha, fun w hw => absurd hw (hc w)⟩) hp
  refine Protocol.rg_sessionScope_of_nil (K := fun _ l' => Deleted c l'.done) hinv
    (fun t d h => ⟨h.1, .nil⟩) (fun _ l₁ l₂ h he => ?_) (fun _ _ _ _ done h w hw => ?_) ?_
  · rw [he.own.2.2.1]
    exact h
  · obtain ⟨files, chats, hmem⟩ := h w hw
    exact ⟨files, chats, List.mem_append_left _ hmem⟩
  · cases c with
    | create => exact hunit (create_rg hlog) (by simp)
    | update => exact hunit (update_rg hinv hlog) (by simp)
    | uploadFile => exact hunit (uploadFile_rg hinv hlog) (by simp)
    | deleteFile => exact hplain (deleteFile_rg hinv hlog) (by simp)
    | renameOrPin => exact hunit (renameOrPin_rg hlog) (by simp)
    | deleteChat => exact hplain (deleteChat_rg hlog) (by simp)
    | createSession => exact hunit (createSession_rg hinv hlog) (by simp)
    | delete w =>
      refine Protocol.rg_mono (fun _ _ _ h a ha => ⟨(h a ha).1, fun w' hw => ?_⟩) (delete_rg hlog)
      obtain rfl : w = w' := by simpa using hw
      exact (h a ha).2

end Requests

/-! ## All requests -/

/-- The sessions of a pool of requests. -/
abbrev BindingPool (ι : Type) : Type :=
  Pool ι BindingStmt BindingStmt.Resp BindingDb BindingOp Taken Unit BindingError Unit

/-- The requests, before any of them has begun. -/
def requests {ι : Type} (user : ι → ℕ) (calls : ι → BindingRequest) (t : Taken) (d : BindingDb) :
    BindingPool ι :=
  Pool.begin t d () fun i => (calls i).serve (user i)

section Pool

variable {ι : Type} [DecidableEq ι] {user : ι → ℕ} {calls : ι → BindingRequest} {t : Taken}
variable {d : BindingDb} {P : BindingPool ι}

theorem requests_keeps (ho : Owned t d) (hb : d.Bound)
    (h : (requests user calls t d).Reaches bindingStore P) :
    Pool.Keeps (binding user) (fun i => ends fun _ l' => Deleted (calls i) l'.done) d P :=
  Pool.ReachesIf.keeps (h.reachesIf fun _ _ _ => trivial)
    (Pool.begin_keeps ⟨ho, hb⟩ fun i => serve_rg (calls i) ⟨ho, hb⟩ rfl)

/-- **The bindings hold** in every state that any interleaving of requests commits: a flush that makes
a row refer to a workspace that its session sees no more fails, and writes nothing. -/
theorem bindings_hold (ho : Owned t d) (hb : d.Bound)
    (h : (requests user calls t d).Reaches bindingStore P) : P.db.Bound ∧
      ∀ (i : ι) (s : BindingStmt) (w : ℕ), s.binds = some w →
        (∀ ws ∈ ((P.own i).view bindingStore).workspaces, ws.id ≠ w) →
        s.failed (s.run P.gen ((P.own i).view bindingStore)).1 = true ∧
          (s.run P.gen ((P.own i).view bindingStore)).2.1 = [] :=
  ⟨(requests_keeps ho hb h).inv.2, fun _ _ _ hs hgone => BindingStmt.failed_run hs hgone⟩

/-- **The rows of a user** change by requests of this user only. -/
theorem bindings_apart {v : ℕ} (ho : Owned t d) (hb : d.Bound) (hv : ∀ i, user i ≠ v)
    (h : (requests user calls t d).Reaches bindingStore P) : Frame v d P.db :=
  (requests_keeps ho hb h).run.rel (.refl v) .trans fun i _ _ _ hm => hm.2.frame hm.1 (hv i)

/-- The workspace, its files and the bindings of its chats are gone, and nothing else. -/
structure Removed (w : ℕ) (d d' : BindingDb) : Prop where
  workspaces : d'.workspaces = d.workspaces.filter (·.id ≠ w)
  files : d'.files = d.files.filter (·.workspaceProjectId ≠ w)
  chats : d'.chats = d.chats.map fun c =>
    if c.workspaceProjectId = some w then { c with workspaceProjectId := none } else c

omit [DecidableEq ι] in
theorem May.removed {w u : ℕ} {files chats : List ℕ}
    (h : May t d u [.deleteWorkspace w files chats]) :
    Removed w d (bindingStore.view [.deleteWorkspace w files chats] d) := by
  cases h with
  | deleteWorkspace ht hf hc hfiles hchats =>
    refine ⟨rfl, List.filter_congr fun f hmem => ?_, List.map_congr_left fun c hmem => ?_⟩
    · simp [hfiles f hmem]
    · simp [hchats c hmem]

/-- **An answered deletion** was committed, on a state that the commits before it have led to, and
removed the workspace, its files and the bindings of its chats. -/
theorem workspace_deleted {i : ι} {w : ℕ} (ho : Owned t d) (hb : d.Bound)
    (h : (requests user calls t d).Reaches bindingStore P) (hc : calls i = .delete w)
    (hi : (P.thr i).prog = some (.ret ())) :
    ∃ before log d₁, before ++ [(i, log)] <+: P.hist ∧
      Store.Commits bindingStore (binding user).may d before d₁ ∧
      Store.Commits bindingStore (binding user).may d (before ++ [(i, log)]) (bindingStore.view log d₁) ∧
      Removed w d₁ (bindingStore.view log d₁) := by
  have hkeeps := requests_keeps ho hb h
  obtain ⟨files, chats, hmem⟩ := hkeeps.result hi () rfl w hc
  obtain ⟨before, d₁, t₁, hprefix, hbefore, hmay, hafter⟩ :=
    hkeeps.run.exists_of_mem (Pool.mem_hist_of_commitsOf hmem)
  exact ⟨before, _, d₁, hprefix, hbefore, hafter, hmay.2.removed⟩

end Pool

/-! ## Runs -/

/-- The statements compute their answers. -/
def bindingHandler : Handler bindingStore Unit where
  answer ω s t _ d := ((s.run t d).1, (s.run t d).2.1, (s.run t d).2.2, (), ω)
  ok _ s t m d := rfl
  compat l l' := (l.flatMap BindingOp.locks).all fun k => (l'.flatMap BindingOp.locks).all fun k' =>
    k.1 ≠ k'.1 || !k.2.conflicts k'.2
  compat_ok h k hk k' hk' he := by
    have := List.all_eq_true.1 (List.all_eq_true.1 h k hk) k' hk'
    simpa [he] using this

/-- A workspace of user 7 with a file and two chats, of which one is bound to it, and a chat of
user 8. -/
def oneWorkspace : BindingDb where
  workspaces := [⟨0, 7, "home", none, none, 0⟩]
  files := [⟨1, 0, "a.txt", [97], "text/plain", 1, some "a"⟩]
  chats := [⟨2, 7, none, false, some 0, 0⟩, ⟨3, 7, none, false, none, 0⟩, ⟨4, 8, none, true, none, 0⟩]

/-- Their identifiers. -/
def oneTaken : Taken := ⟨[7, 7, 7, 7, 8]⟩

theorem oneWorkspace_owned : Owned oneTaken oneWorkspace := by
  constructor <;> simp [oneWorkspace, oneTaken, Taken.user]

theorem oneWorkspace_bound : oneWorkspace.Bound := by
  constructor <;> simp [oneWorkspace, BindingDb.Has]

/-- A chat is bound to the workspace while the workspace is deleted. -/
def bindAndDelete : Fin 2 → BindingRequest
  | 0 => .renameOrPin 3 ⟨none, false, none, true, some 0⟩ 1
  | 1 => .delete 0

/-- The binding has failed, the deletion has answered, and the chats are there. -/
def unbound (P : BindingPool (Fin 2)) : Bool :=
  P.db.chats.map (fun c => (c.id, c.workspaceProjectId)) = [(2, none), (3, none), (4, none)] &&
    P.db.workspaces.isEmpty && P.db.files.isEmpty &&
    (match (P.thr 0).prog with
      | some (.raise (.flush .integrityError)) => true
      | _ => false) &&
    match (P.thr 1).prog with
      | some (.ret _) => true
      | _ => false

/-- The workspace is checked before the deletion, and the flush comes after it. -/
theorem unbound_reached : ∃ P : BindingPool (Fin 2), (requests (fun _ => 7) bindAndDelete oneTaken
    oneWorkspace).Reaches bindingStore P ∧ unbound P = true := by
  have hplay : (Pool.play bindingHandler [0, 1] ([0, 0] ++ [1, 1, 1] ++ [0, 0])
      (requests (fun _ => 7) bindAndDelete oneTaken oneWorkspace) ()).any
      (fun r => unbound r.1) = true := by decide +kernel
  exact Pool.exists_of_play (by decide) hplay

theorem bindings_hold_race : ∃ P : BindingPool (Fin 2), unbound P = true ∧ P.db.Bound := by
  obtain ⟨P, hP, hunbound⟩ := unbound_reached
  exact ⟨P, hunbound, (bindings_hold oneWorkspace_owned oneWorkspace_bound hP).1⟩

theorem bindings_apart_race : ∃ P : BindingPool (Fin 2), unbound P = true ∧
    Frame 8 oneWorkspace P.db := by
  obtain ⟨P, hP, hunbound⟩ := unbound_reached
  exact ⟨P, hunbound, bindings_apart oneWorkspace_owned oneWorkspace_bound (fun _ => by decide) hP⟩

/-- The second request has answered. -/
theorem answered_of_unbound {P : BindingPool (Fin 2)} (h : unbound P = true) :
    (P.thr 1).prog = some (.ret ()) := by
  simp only [unbound, Bool.and_eq_true] at h
  have hlast := h.2
  split at hlast
  · assumption
  · cases hlast

theorem workspace_deleted_race : ∃ (P : BindingPool (Fin 2)) (log : List BindingOp)
    (d₁ : BindingDb), unbound P = true ∧ Removed 0 d₁ (bindingStore.view log d₁) := by
  obtain ⟨P, hP, hunbound⟩ := unbound_reached
  obtain ⟨before, log, d₁, -, -, -, hremoved⟩ := workspace_deleted oneWorkspace_owned
    oneWorkspace_bound hP (i := 1) rfl (answered_of_unbound hunbound)
  exact ⟨P, log, d₁, hunbound, hremoved⟩

end ChatBackend.Workspaces.Binding
