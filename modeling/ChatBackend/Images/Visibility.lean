import ChatBackend.Foundations.Prog
import ChatBackend.Images.Service

/-!
# Which images can be seen

The endpoints agree about the images that a user has: the list shows them, a get returns them, a delete
accepts them, and no one sees an image again that has been deleted. The sweep takes away only what no
endpoint would show any more, and no caller notices it (`image_visibility`).
-/

namespace ChatBackend.Images

open Keyset Prog

/-! ## The sweep as a program -/

/-- What the sweep does: the key in Redis, and the statements of its session. -/
inductive SweepAct : Type
  | setKey
  | delete
  | commit
  | rollback

/-- The errors of its calls: those that it catches, `redis.RedisError` and `SQLAlchemyError`, and
others. -/
inductive SweepError : Type
  | redisError (message : String)
  | sqlAlchemyError (message : String)
  | other (message : String)
  deriving DecidableEq, Repr

@[reducible] def SweepAct.Resp : SweepAct → Type
  | setKey => Except SweepError Bool
  | delete => Except SweepError Unit
  | commit => Except SweepError Unit
  | rollback => Unit

abbrev SweepProg : Type → Type := Prog SweepAct SweepAct.Resp SweepError

def SweepAct.run (e : SweepAct) : SweepProg e.Resp := Prog.perform e

/-- A statement whose error is raised. -/
def raising : Except SweepError Unit → SweepProg Unit
  | .ok () => pure ()
  | .error e => throw e

/-- `maybe_sweep_expired_images`. -/
def maybeSweepExpiredImages : SweepProg Unit := do
  match ← SweepAct.setKey.run with
  | .error (.redisError _) => pure ()
  | .error e => throw e
  | .ok false => pure ()
  | .ok true =>
    Prog.tryCatch (do
        raising (← SweepAct.delete.run)
        raising (← SweepAct.commit.run))
      fun
      | .sqlAlchemyError _ => SweepAct.rollback.run
      | e => throw e

/-- What a session sees: the images, and the users, of which its caller may have inserted one. -/
structure SweepTables where
  rows : List GeneratedImage
  users : List Uuid

/-- The tables, committed and as the session sees them. -/
structure SweepWorld where
  db : SweepTables
  work : SweepTables

/-- The steps of the sweep. Redis raises errors of its class, and so does SQLAlchemy. -/
def sweepStep (now : Timestamp) (batch : ℕ) (w : SweepWorld) :
    (e : SweepAct) → SweepAct.Resp e → SweepWorld → Prop
  | .setKey, .ok _, w' => w' = w
  | .setKey, .error e, w' => (∃ message, e = .redisError message) ∧ w' = w
  | .delete, .ok (), w' => ∃ ids, (Sweep.deleted ids).Allowed now w.work.rows batch ∧
      w' = ⟨w.db, ⟨(Sweep.deleted ids).apply w.work.rows, w.work.users⟩⟩
  | .delete, .error e, w' => (∃ message, e = .sqlAlchemyError message) ∧ w' = w
  | .commit, .ok (), w' => w' = ⟨w.work, w.work⟩
  | .commit, .error e, w' => (∃ message, e = .sqlAlchemyError message) ∧ w' = w
  | .rollback, _, w' => w' = ⟨w.db, w.db⟩

/-- The end of a sweep, in a session whose caller has changed the users and not committed it. -/
def Sweep.leaves (rows : List GeneratedImage) (users pending : List Uuid) : Sweep → SweepWorld
  | redisUnavailable | throttled => ⟨⟨rows, users⟩, ⟨rows, pending⟩⟩
  | deleteFailed => ⟨⟨rows, users⟩, ⟨rows, users⟩⟩
  | deleted ids =>
    ⟨⟨(deleted ids).apply rows, pending⟩, ⟨(deleted ids).apply rows, pending⟩⟩

theorem Sweep.leaves_rows (rows : List GeneratedImage) (users pending : List Uuid) (sweep : Sweep) :
    (sweep.leaves rows users pending).db.rows = sweep.apply rows ∧
      (sweep.leaves rows users pending).work.rows = sweep.apply rows := by
  cases sweep <;> exact ⟨rfl, rfl⟩

/-- The sweep raises nothing, and ends as a `Sweep` says. -/
theorem maybeSweepExpiredImages_runs {now : Timestamp} {batch : ℕ} {rows : List GeneratedImage}
    {users pending : List Uuid} {o : Except SweepError Unit} {w : SweepWorld}
    (h : Runs (sweepStep now batch) maybeSweepExpiredImages ⟨⟨rows, users⟩, ⟨rows, pending⟩⟩ o w) :
    o = .ok () ∧ ∃ sweep : Sweep, sweep.Allowed now rows batch ∧ w = sweep.leaves rows users pending := by
  refine h.of_wp (C := fun _ _ => True) (Q := fun o w => o = .ok () ∧
    ∃ sweep : Sweep, sweep.Allowed now rows batch ∧ w = sweep.leaves rows users pending) ?_
  refine ⟨trivial, ?_⟩
  rintro (e | acquired) w₀ h₀
  · obtain ⟨⟨message, rfl⟩, rfl⟩ := h₀
    exact ⟨rfl, .redisUnavailable, trivial, rfl⟩
  obtain rfl : w₀ = _ := h₀
  cases acquired with
  | false => exact ⟨rfl, .throttled, trivial, rfl⟩
  | true =>
    refine ⟨trivial, ?_⟩
    rintro (e | _) w₁ h₁
    · obtain ⟨⟨message, rfl⟩, rfl⟩ := h₁
      refine ⟨trivial, ?_⟩
      rintro _ _ rfl
      exact ⟨rfl, .deleteFailed, trivial, rfl⟩
    · obtain ⟨ids, hallowed, rfl⟩ := h₁
      refine ⟨trivial, ?_⟩
      rintro (e | _) w₂ h₂
      · obtain ⟨⟨message, rfl⟩, rfl⟩ := h₂
        refine ⟨trivial, ?_⟩
        rintro _ _ rfl
        exact ⟨rfl, .deleteFailed, trivial, rfl⟩
      · obtain rfl : w₂ = _ := h₂
        exact ⟨rfl, .deleted ids, hallowed, rfl⟩

/-! ## Histories -/

/-- The table at a time, and the identifiers that it has ever given out. -/
structure ImagesState where
  now : Timestamp
  rows : List GeneratedImage
  issued : List Uuid

/-- `ON DELETE SET NULL` of the session. -/
def GeneratedImage.withoutSession (sessionId : Uuid) (row : GeneratedImage) : GeneratedImage :=
  if row.sessionId = some sessionId then { row with sessionId := none } else row

/-- What happens to the table: a request, an image of a turn, the sweep after it, the end of a user or of
a session, and the time that passes. -/
inductive ImagesStep (batch : ℕ) : ImagesState → ImagesState → Prop
  | request (s : ImagesState) (request : ImageRequest) (admitted : Bool) (sweep : Sweep)
      (h : sweep.Allowed s.now s.rows batch) :
      ImagesStep batch s { s with rows := (request.serve s.now s.rows admitted sweep).2 }
  | generate (s : ImagesState) (row : GeneratedImage) (h : row.id ∉ s.issued) :
      ImagesStep batch s ⟨s.now, s.rows ++ [row], s.issued ++ [row.id]⟩
  | sweep (s : ImagesState) (sweep : Sweep) (h : sweep.Allowed s.now s.rows batch) :
      ImagesStep batch s { s with rows := sweep.apply s.rows }
  | removeUser (s : ImagesState) (userId : Uuid) :
      ImagesStep batch s { s with rows := s.rows.filter (·.userId ≠ userId) }
  | removeSession (s : ImagesState) (sessionId : Uuid) :
      ImagesStep batch s { s with rows := s.rows.map (·.withoutSession sessionId) }
  | tick (s : ImagesState) (now : Timestamp) (h : s.now ≤ now) :
      ImagesStep batch s { s with now := now }

/-- The states of a table that was empty once. -/
def Reachable (batch : ℕ) (s : ImagesState) : Prop :=
  ∃ now, Relation.ReflTransGen (ImagesStep batch) ⟨now, [], []⟩ s

section Histories

variable {batch : ℕ} {s s' : ImagesState} {now : Timestamp} {rows : List GeneratedImage}
  {admitted : Bool} {sweep : Sweep} {userId id : Uuid}

/-- Rows are only taken away. -/
theorem apply_sublist (sweep : Sweep) (rows : List GeneratedImage) : (sweep.apply rows).Sublist rows := by
  cases sweep with
  | deleted ids => exact List.filter_sublist
  | _ => exact List.Sublist.refl rows

theorem serve_sublist (request : ImageRequest) :
    (request.serve now rows admitted sweep).2.Sublist rows := by
  have hswept := apply_sublist sweep rows
  cases request with
  | list userId limit cursor =>
    have hrows : (listImages now rows admitted sweep userId limit cursor).2.Sublist rows := by
      rw [listImages]
      cases admitted with
      | false => exact List.Sublist.refl rows
      | true =>
        simp only [Bool.not_true, Bool.false_eq_true, if_false]
        split <;> exact hswept
    exact hrows
  | get userId id =>
    have hrows : (getImage now rows sweep userId id).2.Sublist rows := by
      rw [getImage]
      split <;> exact hswept
    exact hrows
  | delete userId id =>
    rw [ImageRequest.serve, deleteImage]
    cases admitted with
    | false => exact List.Sublist.refl rows
    | true => exact List.filter_sublist.trans hswept

/-- The identifiers of the rows are distinct, and have been given out. -/
structure Consistent (s : ImagesState) : Prop where
  ids : (s.rows.map GeneratedImage.id).Nodup
  issued : ∀ row ∈ s.rows, row.id ∈ s.issued

theorem Consistent.sublist (h : Consistent s) (hrows : rows.Sublist s.rows) :
    Consistent { s with rows := rows } :=
  ⟨h.ids.sublist (hrows.map _), fun row hrow => h.issued row (hrows.subset hrow)⟩

/-- Ending a session keeps the identifiers. -/
theorem map_id_removeSession (rows : List GeneratedImage) (sessionId : Uuid) :
    (rows.map (·.withoutSession sessionId)).map GeneratedImage.id = rows.map GeneratedImage.id := by
  rw [List.map_map]
  refine List.map_congr_left fun row _ => ?_
  rw [Function.comp_apply, GeneratedImage.withoutSession]
  split_ifs <;> rfl

theorem Consistent.step (h : Consistent s) (hs : ImagesStep batch s s') : Consistent s' := by
  cases hs with
  | request request admitted sweep _ => exact h.sublist (serve_sublist request)
  | sweep sweep _ => exact h.sublist (apply_sublist sweep _)
  | removeUser userId => exact h.sublist List.filter_sublist
  | tick now _ => exact ⟨h.ids, h.issued⟩
  | generate row hrow =>
    refine ⟨?_, fun row' hrow' => ?_⟩
    · rw [List.map_append, List.map_singleton]
      refine List.Nodup.append h.ids (List.nodup_singleton _) fun id hid hid' => hrow ?_
      obtain ⟨row', hrow', rfl⟩ := List.mem_map.1 hid
      rw [← List.mem_singleton.1 hid']
      exact h.issued row' hrow'
    · rcases List.mem_append.1 hrow' with hrow' | hrow'
      · exact List.mem_append_left _ (h.issued row' hrow')
      · rw [List.mem_singleton.1 hrow']
        exact List.mem_append_right _ (.head _)
  | removeSession sessionId =>
    have hids := map_id_removeSession s.rows sessionId
    refine ⟨hids ▸ h.ids, fun row hrow => ?_⟩
    have hid : row.id ∈ s.rows.map GeneratedImage.id := hids ▸ List.mem_map_of_mem hrow
    obtain ⟨row', hrow', heq⟩ := List.mem_map.1 hid
    exact heq ▸ h.issued row' hrow'

theorem Reachable.consistent (h : Reachable batch s) : Consistent s := by
  obtain ⟨now, h⟩ := h
  induction h with
  | refl => exact ⟨.nil, nofun⟩
  | tail _ hs ih => exact ih.step hs

/-- An image that has been and is no more. -/
structure Gone (id : Uuid) (s : ImagesState) : Prop where
  issued : id ∈ s.issued
  rows : id ∉ s.rows.map GeneratedImage.id

theorem Gone.step (h : Gone id s) (hs : ImagesStep batch s s') : Gone id s' := by
  have hsublist : ∀ rows : List GeneratedImage, rows.Sublist s.rows → id ∉ rows.map GeneratedImage.id :=
    fun rows hrows hid => h.rows ((hrows.map _).subset hid)
  cases hs with
  | request request admitted sweep _ => exact ⟨h.issued, hsublist _ (serve_sublist request)⟩
  | sweep sweep _ => exact ⟨h.issued, hsublist _ (apply_sublist sweep _)⟩
  | removeUser userId => exact ⟨h.issued, hsublist _ List.filter_sublist⟩
  | tick now _ => exact ⟨h.issued, h.rows⟩
  | removeSession sessionId => exact ⟨h.issued, by rw [map_id_removeSession]; exact h.rows⟩
  | generate row hrow =>
    refine ⟨List.mem_append_left _ h.issued, ?_⟩
    rw [List.map_append, List.map_singleton, List.mem_append, List.mem_singleton]
    rintro (hid | rfl)
    · exact h.rows hid
    · exact hrow h.issued

theorem Gone.later (h : Gone id s) (hs : Relation.ReflTransGen (ImagesStep batch) s s') : Gone id s' := by
  induction hs with
  | refl => exact h
  | tail _ hs ih => exact ih.step hs

/-! ## What the endpoints answer -/

/-- The user of a request. -/
def ImageRequest.user : ImageRequest → Uuid
  | list u _ _ => u
  | get u _ => u
  | delete u _ => u

/-- The answer of a get, from the images of the user. -/
theorem getImage_fst : (getImage now rows sweep userId id).1 =
    match (visible now (sweep.apply rows) userId).find? (·.id = id) with
    | none => .notFound
    | some row => .image row.content row.contentType := by
  rw [getImage, findImage_eq]
  cases (visible now (sweep.apply rows) userId).find? (·.id = id) <;> rfl

/-- The answer of a delete. -/
theorem deleteImage_fst : (deleteImage now rows true sweep userId id).1 =
    if (visible now (sweep.apply rows) userId).countP (·.id = id) = 0 then .notFound else .deleted := by
  rw [← countP_deletable]
  rfl

/-- An endpoint answers from the images of the user alone. -/
theorem serve_congr {rows' : List GeneratedImage} {sweep' : Sweep} (request : ImageRequest)
    (h : visible now (sweep.apply rows) request.user = visible now (sweep'.apply rows') request.user) :
    (request.serve now rows admitted sweep).1 = (request.serve now rows' admitted sweep').1 := by
  cases request with
  | list userId limit cursor =>
    have hrows : ∀ c, listRows now (sweep.apply rows) userId limit c =
        listRows now (sweep'.apply rows') userId limit c := fun c => by
      have h : visible now (sweep.apply rows) userId = visible now (sweep'.apply rows') userId := h
      rw [listRows, listRows, ← visible, ← visible, h]
    cases admitted with
    | false => rfl
    | true =>
      simp only [ImageRequest.serve, listImages, hrows, Bool.not_true, Bool.false_eq_true, if_false]
      split <;> rfl
  | get userId id =>
    have h : visible now (sweep.apply rows) userId = visible now (sweep'.apply rows') userId := h
    rw [ImageRequest.serve, ImageRequest.serve, getImage_fst, getImage_fst, h]
  | delete userId id =>
    have h : visible now (sweep.apply rows) userId = visible now (sweep'.apply rows') userId := h
    cases admitted with
    | false => rfl
    | true => rw [ImageRequest.serve, ImageRequest.serve, deleteImage_fst, deleteImage_fst, h]

/-- An image that a page shows is one of the user's. -/
theorem mem_page {limit : ℕ} {cursor : Option String} {p : Page ImageListItem String}
    {item : ImageListItem} (h : ((ImageRequest.list userId limit cursor).serve now rows admitted sweep).1 =
      .page p) (hitem : item ∈ p.rows) :
    item.imageId ∈ (visible now (sweep.apply rows) userId).map GeneratedImage.id := by
  have hlist : ∃ c, p = listRows now (sweep.apply rows) userId limit c := by
    simp only [ImageRequest.serve, listImages] at h
    split at h
    · cases h
    · split at h
      · cases h
      · rename_i decoded _
        exact ⟨decoded, (ImageResponse.page.inj h).symm⟩
  obtain ⟨c, rfl⟩ := hlist
  obtain ⟨row, hrow, rfl⟩ := List.mem_map.1 hitem
  have hrow := List.mem_of_mem_take (List.mem_of_mem_take hrow)
  have hrow := (List.mem_filter.1 ((sorted_perm _).mem_iff.1 hrow)).1
  exact List.mem_map_of_mem hrow

/-- No endpoint knows an image that is gone. -/
theorem Gone.serve (h : Gone id s) (sweep : Sweep) (userId : Uuid) :
    ((ImageRequest.get userId id).serve s.now s.rows true sweep).1 = .notFound ∧
    ((ImageRequest.delete userId id).serve s.now s.rows true sweep).1 = .notFound ∧
    ∀ limit cursor p, ((ImageRequest.list userId limit cursor).serve s.now s.rows true sweep).1 = .page p →
      ∀ item ∈ p.rows, item.imageId ≠ id := by
  have hvisible : id ∉ (visible s.now (sweep.apply s.rows) userId).map GeneratedImage.id := fun hid =>
    h.rows (((List.filter_sublist.trans (apply_sublist sweep _)).map _).subset hid)
  have hnone : ∀ row ∈ visible s.now (sweep.apply s.rows) userId, ¬ decide (row.id = id) = true :=
    fun row hrow heq => hvisible (of_decide_eq_true heq ▸ List.mem_map_of_mem hrow)
  refine ⟨?_, ?_, fun limit cursor p hp item hitem heq => hvisible (heq ▸ mem_page hp hitem)⟩
  · rw [ImageRequest.serve, getImage_fst, List.find?_eq_none.2 hnone]
  · rw [ImageRequest.serve, deleteImage_fst, if_pos (List.countP_eq_zero.2 hnone)]

/-- A table after sweeps. -/
def Swept (now : Timestamp) (batch : ℕ) : List GeneratedImage → List GeneratedImage → Prop :=
  Relation.ReflTransGen fun rows rows' =>
    ∃ sweep : Sweep, sweep.Allowed now rows batch ∧ rows' = sweep.apply rows

theorem Swept.visible {rows' : List GeneratedImage} (h : Swept now batch rows rows')
    (hids : (rows.map GeneratedImage.id).Nodup) : (rows'.map GeneratedImage.id).Nodup ∧
      visible now rows' userId = Images.visible now rows userId := by
  induction h with
  | refl => exact ⟨hids, rfl⟩
  | tail _ hs ih =>
    obtain ⟨sweep, hallowed, rfl⟩ := hs
    exact ⟨ih.1.sublist ((apply_sublist sweep _).map _), (visible_sweep ih.1 hallowed userId).trans ih.2⟩

/-- A row that a sweep takes away has expired, and will not be seen again. -/
theorem not_fresh_of_swept (hids : (rows.map GeneratedImage.id).Nodup)
    (h : sweep.Allowed now rows batch) {row : GeneratedImage} (hrow : row ∈ rows)
    (hgone : row ∉ sweep.apply rows) {now' : Timestamp} (hnow : now ≤ now') : row.fresh now' = false := by
  cases sweep with
  | deleted ids =>
    have hid : row.id ∈ ids := by
      by_contra hid
      exact hgone (List.mem_filter.2 ⟨hrow, by simpa using hid⟩)
    obtain ⟨row', hrow', heq, hexpired⟩ := h.2.1 _ hid
    obtain rfl : row' = row := List.inj_on_of_nodup_map hids hrow' hrow heq
    obtain ⟨e, he, hle⟩ := (Option.any_eq_true _ _).1 hexpired
    have hlater : row'.expired now' = true :=
      (Option.any_eq_true _ _).2 ⟨e, he, decide_eq_true ((of_decide_eq_true hle).trans hnow)⟩
    rw [expired_eq, Bool.not_eq_true'] at hlater
    exact hlater
  | _ => exact absurd hrow hgone

/-- A delete that is accepted takes away the image, and no other one. -/
theorem Consistent.delete {rows : List GeneratedImage} (hs : Consistent s)
    (hserve : (ImageRequest.delete userId id).serve s.now s.rows true sweep = (.deleted, rows)) :
    (∀ row, row.id ≠ id → (row ∈ rows ↔ row ∈ sweep.apply s.rows)) ∧ Gone id { s with rows := rows } := by
  have hrows : ((sweep.apply s.rows).filter fun row => !row.deletable s.now userId id) = rows :=
    (Prod.mk.inj hserve).2
  have hcount : (sweep.apply s.rows).countP (·.deletable s.now userId id) ≠ 0 := fun hzero => by
    have hdeleted : (deleteImage s.now s.rows true sweep userId id).1 = .deleted := (Prod.mk.inj hserve).1
    rw [deleteImage] at hdeleted
    simp only [Bool.not_true, Bool.false_eq_true, if_false, hzero, if_true] at hdeleted
    cases hdeleted
  obtain ⟨row, hrow, hdeletable⟩ := List.countP_pos_iff.1 (Nat.pos_of_ne_zero hcount)
  have hid : row.id = id := by
    simp only [GeneratedImage.deletable, Bool.and_eq_true, decide_eq_true_eq] at hdeletable
    exact hdeletable.1.1
  have hids := hs.ids.sublist ((apply_sublist sweep s.rows).map _)
  refine ⟨fun row' hne => ?_, ?_, ?_⟩
  · have hnot : row'.deletable s.now userId id = false := by simp [GeneratedImage.deletable, hne]
    rw [← hrows, List.mem_filter, hnot]
    exact and_iff_left rfl
  · exact hid ▸ hs.issued row ((apply_sublist sweep s.rows).subset hrow)
  · rw [← hrows]
    intro hmem
    obtain ⟨row', hrow', heq⟩ := List.mem_map.1 hmem
    obtain ⟨hswept, hkept⟩ := List.mem_filter.1 hrow'
    obtain rfl : row' = row := List.inj_on_of_nodup_map hids hswept hrow (heq.trans hid.symm)
    rw [hdeletable] at hkept
    cases hkept

/-- **Visibility of the images.** In a state that can be reached, the pages of the list show the images
that the user has, a get returns just these, and a delete accepts just these; an image that has been
deleted is not found from then on, and no other one is touched; and a sweep takes away only what will not
be seen again, does not change what its caller answers, and raises nothing. -/
theorem image_visibility (h : Reachable batch s) (userId : Uuid) :
    (∀ (limit : ℕ) (sweeps : Option String → Sweep) (before : Option String → List GeneratedImage),
      1 ≤ limit → (∀ c, Swept s.now batch s.rows (before c) ∧
        (sweeps c).Allowed s.now (before c) batch) →
      Paginates (fun c => (listImages s.now (before c) true (sweeps c) userId limit c).1) limit
        ((visible s.now s.rows userId).map listItem) ImageListItem.before) ∧
    (∀ id (sweep : Sweep), sweep.Allowed s.now s.rows batch →
      ((∃ content contentType, ((ImageRequest.get userId id).serve s.now s.rows true sweep).1 =
        .image content contentType) ↔ id ∈ (visible s.now s.rows userId).map GeneratedImage.id) ∧
      (((ImageRequest.delete userId id).serve s.now s.rows true sweep).1 = .deleted ↔
        id ∈ (visible s.now s.rows userId).map GeneratedImage.id)) ∧
    (∀ id (sweep : Sweep) rows, sweep.Allowed s.now s.rows batch →
      (ImageRequest.delete userId id).serve s.now s.rows true sweep = (.deleted, rows) →
      (∀ row, row.id ≠ id → (row ∈ rows ↔ row ∈ sweep.apply s.rows)) ∧
      ∀ s', Relation.ReflTransGen (ImagesStep batch) { s with rows := rows } s' →
        ∀ (sweep : Sweep) (userId : Uuid),
          ((ImageRequest.get userId id).serve s'.now s'.rows true sweep).1 = .notFound ∧
          ((ImageRequest.delete userId id).serve s'.now s'.rows true sweep).1 = .notFound ∧
          ∀ limit cursor p,
            ((ImageRequest.list userId limit cursor).serve s'.now s'.rows true sweep).1 = .page p →
            ∀ item ∈ p.rows, item.imageId ≠ id) ∧
    (∀ sweep : Sweep, sweep.Allowed s.now s.rows batch →
      (∀ row ∈ s.rows, row ∉ sweep.apply s.rows → ∀ now', s.now ≤ now' → row.fresh now' = false) ∧
      ∀ (request : ImageRequest) admitted, (request.serve s.now s.rows admitted sweep).1 =
        (request.serve s.now s.rows admitted .throttled).1) ∧
    ∀ users pending o w,
      Runs (sweepStep s.now batch) maybeSweepExpiredImages ⟨⟨s.rows, users⟩, ⟨s.rows, pending⟩⟩ o w →
      o = .ok () ∧ ∃ sweep : Sweep, sweep.Allowed s.now s.rows batch ∧
        w.db.rows = sweep.apply s.rows ∧ w.work.rows = sweep.apply s.rows ∧
        w = sweep.leaves s.rows users pending := by
  have hs := h.consistent
  refine ⟨fun limit sweeps before hlimit hbefore => ?_, fun id sweep hsweep => ?_,
    fun id sweep rows hsweep hserve => ?_, fun sweep hsweep => ⟨?_, fun request admitted => ?_⟩,
    fun users pending o w hr => ?_⟩
  · refine paginates_images userId hlimit hs.ids fun c => ?_
    obtain ⟨hswept, hallowed⟩ := hbefore c
    have hsame : ((before c).map GeneratedImage.id).Nodup ∧
        visible s.now (before c) userId = visible s.now s.rows userId := hswept.visible hs.ids
    exact (visible_sweep hsame.1 hallowed userId).trans hsame.2
  · rw [ImageRequest.serve, ImageRequest.serve, getImage_fst, deleteImage_fst,
      visible_sweep hs.ids hsweep]
    refine ⟨?_, ?_⟩
    · cases hfind : (visible s.now s.rows userId).find? (·.id = id) with
      | none =>
        refine ⟨nofun, fun hid => ?_⟩
        obtain ⟨row, hrow, rfl⟩ := List.mem_map.1 hid
        exact absurd (decide_eq_true rfl) (List.find?_eq_none.1 hfind row hrow)
      | some row =>
        refine ⟨fun _ => ?_, fun _ => ⟨_, _, rfl⟩⟩
        have hrow : row.id = id := by simpa using List.find?_some hfind
        exact hrow ▸ List.mem_map_of_mem (List.mem_of_find?_eq_some hfind)
    · split_ifs with hcount
      · refine ⟨nofun, fun hid => ?_⟩
        obtain ⟨row, hrow, rfl⟩ := List.mem_map.1 hid
        exact absurd (decide_eq_true rfl) (List.countP_eq_zero.1 hcount row hrow)
      · refine ⟨fun _ => ?_, fun _ => rfl⟩
        obtain ⟨row, hrow, heq⟩ := List.countP_pos_iff.1 (Nat.pos_of_ne_zero hcount)
        exact of_decide_eq_true heq ▸ List.mem_map_of_mem hrow
  · obtain ⟨hother, hgone⟩ := hs.delete hserve
    exact ⟨hother, fun s' hs' sweep userId => (hgone.later hs').serve sweep userId⟩
  · exact fun row hrow hgone now' hnow => not_fresh_of_swept hs.ids hsweep hrow hgone hnow
  · refine serve_congr request ?_
    exact visible_sweep hs.ids hsweep _
  · obtain ⟨ho, sweep, hallowed, rfl⟩ := maybeSweepExpiredImages_runs hr
    obtain ⟨hdb, hwork⟩ := sweep.leaves_rows s.rows users pending
    exact ⟨ho, sweep, hallowed, hdb, hwork, rfl⟩

end Histories

/-! ## An example -/

def someNoon : Timestamp := ⟨⟨2024, 2, 29, 12, 0, 0, 0⟩, by decide⟩

/-- An image that never expires. -/
def someImage : GeneratedImage := ⟨1, 7, none, [137], "image/png", 1, someNoon, none⟩

/-- A table with this image. -/
def oneImage : ImagesState := ⟨someNoon, [someImage], [1]⟩

theorem oneImage_reachable : Reachable 1 oneImage :=
  ⟨someNoon, .single (.generate ⟨someNoon, [], []⟩ someImage (by decide))⟩

/-- Its user sees the image in the list and gets it, deletes it, and does not find it any more; and a
sweep raises nothing, with the user still to be committed. -/
theorem image_visibility_deleted :
    Paginates (fun c => (listImages someNoon [someImage] true .throttled 7 1 c).1) 1
      [listItem someImage] ImageListItem.before ∧
    (∃ content contentType, ((ImageRequest.get 7 1).serve someNoon [someImage] true .throttled).1 =
      .image content contentType) ∧
    ((ImageRequest.delete 7 1).serve someNoon [someImage] true .throttled).1 = .deleted ∧
    ((ImageRequest.get 7 1).serve someNoon [] true .throttled).1 = .notFound ∧
    ∀ o w, Runs (sweepStep someNoon 1) maybeSweepExpiredImages
      ⟨⟨[someImage], []⟩, ⟨[someImage], [7]⟩⟩ o w → o = .ok () := by
  obtain ⟨hpages, hshown, hdeleted, -, hsweep⟩ := image_visibility oneImage_reachable 7
  have hvisible : 1 ∈ (visible someNoon [someImage] 7).map GeneratedImage.id := by decide
  have hserve : (ImageRequest.delete 7 1).serve someNoon [someImage] true .throttled =
      (.deleted, []) := rfl
  obtain ⟨hget, hdelete⟩ := hshown 1 .throttled trivial
  refine ⟨hpages 1 _ (fun _ => [someImage]) le_rfl fun _ => ⟨.refl, trivial⟩, hget.2 hvisible,
    hdelete.2 hvisible, ((hdeleted 1 .throttled [] trivial hserve).2 _ .refl .throttled 7).1,
    fun o w hr => (hsweep _ _ o w hr).1⟩

end ChatBackend.Images
