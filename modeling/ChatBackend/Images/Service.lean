import ChatBackend.Foundations.Keyset
import ChatBackend.Model.Cursor

/-!
# The generated images

The endpoints of `/v1/images`, each after the opportunistic sweep of expired rows that it begins with.
The pages of the list show every image of the user that has not expired once, the latest ones first
(`paginates_images`).
-/

namespace ChatBackend.Images

open Keyset

/-- A row of `generated_images`. -/
structure GeneratedImage where
  id : Uuid
  userId : Uuid
  sessionId : Option Uuid
  content : List UInt8
  contentType : String
  size : ℕ
  createdAt : Timestamp
  expiresAt : Option Timestamp

/-- `ImageListItem`. -/
structure ImageListItem where
  imageId : Uuid
  contentType : String
  size : ℕ
  createdAt : Timestamp
  sessionId : Option Uuid

/-- The errors of the endpoints. -/
inductive ImagesError : Type
  | rateLimited (message : String)
  | validationFailed (message : String)
  deriving DecidableEq, Repr

/-! ## The sweep -/

/-- How `maybe_sweep_expired_images` ends: Redis fails, another worker has the key, the delete fails, or
rows have been deleted. -/
inductive Sweep : Type
  | redisUnavailable
  | throttled
  | deleteFailed
  | deleted (ids : List Uuid)

section Tables

variable (now : Timestamp) (rows : List GeneratedImage)

/-- `expires_at IS NOT NULL AND expires_at <= now()`. -/
def GeneratedImage.expired (row : GeneratedImage) : Bool := row.expiresAt.any (· ≤ now)

/-- `expires_at IS NULL OR expires_at > now()`. -/
def GeneratedImage.fresh (row : GeneratedImage) : Bool :=
  row.expiresAt.isNone || row.expiresAt.any (now < ·)

/-- The rows after the sweep. -/
def Sweep.apply : Sweep → List GeneratedImage
  | deleted ids => rows.filter (·.id ∉ ids)
  | _ => rows

/-- What the delete may select: any `batch` of the expired rows, or all of them. -/
def Sweep.Allowed (batch : ℕ) : Sweep → Prop
  | deleted ids => ids.Nodup ∧ (∀ id ∈ ids, ∃ row ∈ rows, row.id = id ∧ row.expired now = true) ∧
      ids.length = min batch (rows.filter (·.expired now)).length
  | _ => True

/-! ## The endpoints -/

/-- The key of the order `created_at DESC, id DESC`. -/
def GeneratedImage.key (row : GeneratedImage) : Timestamp ×ₗ Uuid := toLex (row.createdAt, row.id)

/-- The rows after a cursor. -/
def GeneratedImage.isAfter (c : ImageCursor) (row : GeneratedImage) : Bool :=
  row.createdAt < c.createdAt || (row.createdAt = c.createdAt && row.id < c.id)

def listItem (row : GeneratedImage) : ImageListItem :=
  ⟨row.id, row.contentType, row.size, row.createdAt, row.sessionId⟩

/-- The query of `list_images`. -/
def listRows (userId : Uuid) (limit : ℕ) (cursor : Option ImageCursor) : Page ImageListItem String :=
  let selected := (rows.filter fun row => row.userId = userId && row.fresh now).filter fun row =>
    cursor.all (row.isAfter ·)
  .of limit ((sorted GeneratedImage.key selected).take (limit + 1)) listItem fun last =>
    ImageCursor.encode ⟨last.createdAt, last.id⟩

/-- The query of `get_image`. -/
def findImage (userId id : Uuid) : Option GeneratedImage :=
  rows.find? fun row => row.id = id && row.userId = userId && row.fresh now

/-- The condition of the delete of `delete_image`. -/
def GeneratedImage.deletable (userId id : Uuid) (row : GeneratedImage) : Bool :=
  row.id = id && row.userId = userId && row.fresh now

/-- A request to the endpoints. -/
inductive ImageRequest : Type
  | list (userId : Uuid) (limit : ℕ) (cursor : Option String)
  | get (userId id : Uuid)
  | delete (userId id : Uuid)

/-- The responses: 200 with a page, 200 with the bytes, 204, 404, and the errors. -/
inductive ImageResponse : Type
  | page (page : Page ImageListItem String)
  | image (content : List UInt8) (contentType : String)
  | deleted
  | notFound
  | error (e : ImagesError)

/-- The response of `list_images`. -/
def ImageResponse.ofList : Except ImagesError (Page ImageListItem String) → ImageResponse
  | .ok p => page p
  | .error e => error e

variable (admitted : Bool) (sweep : Sweep)

/-- `list_images`. -/
def listImages (userId : Uuid) (limit : ℕ) (cursor : Option String) :
    Except ImagesError (Page ImageListItem String) × List GeneratedImage :=
  if !admitted then (.error (.rateLimited "rate limit exceeded"), rows)
  else
    let swept := sweep.apply rows
    match decodeCursor (.validationFailed "invalid cursor") ImageCursor.decode cursor with
    | .error e => (.error e, swept)
    | .ok decoded => (.ok (listRows now swept userId limit decoded), swept)

/-- `get_image`. -/
def getImage (userId id : Uuid) : ImageResponse × List GeneratedImage :=
  let swept := sweep.apply rows
  match findImage now swept userId id with
  | none => (.notFound, swept)
  | some row => (.image row.content row.contentType, swept)

/-- `delete_image`. -/
def deleteImage (userId id : Uuid) : ImageResponse × List GeneratedImage :=
  if !admitted then (.error (.rateLimited "rate limit exceeded"), rows)
  else
    let swept := sweep.apply rows
    let rowcount := swept.countP (·.deletable now userId id)
    (if rowcount = 0 then .notFound else .deleted, swept.filter fun row => !row.deletable now userId id)

/-- The handling of a request. -/
def ImageRequest.serve : ImageRequest → ImageResponse × List GeneratedImage
  | list userId limit cursor =>
    let result := listImages now rows admitted sweep userId limit cursor
    (.ofList result.1, result.2)
  | get userId id => getImage now rows sweep userId id
  | delete userId id => deleteImage now rows admitted sweep userId id

/-! ## What an endpoint sees -/

/-- The images that a user has at a time. -/
def visible (userId : Uuid) : List GeneratedImage :=
  rows.filter fun row => row.userId = userId && row.fresh now

variable {now rows admitted sweep}

theorem decide_le_eq (t t' : Timestamp) : decide (t ≤ t') = !decide (t' < t) := by
  by_cases hlt : t' < t
  · rw [decide_eq_true hlt, decide_eq_false (not_le.2 hlt), Bool.not_true]
  · rw [decide_eq_false hlt, decide_eq_true (not_lt.1 hlt), Bool.not_false]

/-- An expired row is the same as one that is not fresh. -/
theorem expired_eq (row : GeneratedImage) : row.expired now = !row.fresh now := by
  rw [GeneratedImage.expired, GeneratedImage.fresh]
  cases row.expiresAt with
  | none => rfl
  -- by rewriting: the kernel must not compare the instants of two times
  | some e => rw [Option.any_some, Option.any_some, Option.isNone_some, Bool.false_or, decide_le_eq]

/-- **The sweep** leaves what anyone sees. -/
theorem visible_sweep {batch : ℕ} (hids : (rows.map GeneratedImage.id).Nodup)
    (h : sweep.Allowed now rows batch) (userId : Uuid) :
    visible now (sweep.apply rows) userId = visible now rows userId := by
  cases sweep with
  | deleted ids =>
    rw [visible, visible, Sweep.apply, List.filter_filter]
    refine List.filter_congr fun row hrow => ?_
    by_cases hid : row.id ∈ ids
    · obtain ⟨row', hrow', heq, hexpired⟩ := h.2.1 _ hid
      obtain rfl : row' = row := List.inj_on_of_nodup_map hids hrow' hrow heq
      rw [expired_eq, Bool.not_eq_true'] at hexpired
      simp [hexpired]
    · simp [hid]
  | _ => rfl

/-- The query of a get looks among the images of the user. -/
theorem findImage_eq (userId id : Uuid) :
    findImage now rows userId id = (visible now rows userId).find? (·.id = id) := by
  rw [findImage, visible, List.find?_filter]
  congr 1
  funext row
  by_cases hid : row.id = id <;> simp [hid]

theorem countP_deletable (userId id : Uuid) :
    rows.countP (·.deletable now userId id) = (visible now rows userId).countP (·.id = id) := by
  rw [visible, List.countP_filter]
  refine List.countP_congr fun row _ => ?_
  simp [GeneratedImage.deletable, and_assoc]

/-! ## The list -/

/-- The order of the list. -/
def ImageListItem.before (a b : ImageListItem) : Prop :=
  b.createdAt < a.createdAt ∨ b.createdAt = a.createdAt ∧ b.imageId < a.imageId

/-- The cursor of a key. -/
def imageCursor (k : Timestamp ×ₗ Uuid) : ImageCursor := ⟨(ofLex k).1, (ofLex k).2⟩

theorem isAfter_iff (row : GeneratedImage) (k : Timestamp ×ₗ Uuid) :
    row.isAfter (imageCursor k) = true ↔ row.key < k := by
  rw [Prod.Lex.lt_iff]
  simp only [GeneratedImage.isAfter, Bool.or_eq_true, Bool.and_eq_true, decide_eq_true_eq]
  rfl

theorem listImages_map (userId : Uuid) (limit : ℕ) (c : Option (Timestamp ×ₗ Uuid)) :
    (listImages now rows true sweep userId limit (c.map fun k => (imageCursor k).encode)).1 =
      .ok (.of limit (fetched GeneratedImage.key limit (visible now (sweep.apply rows) userId) c) listItem
        fun row => (imageCursor row.key).encode) := by
  have hcursor := decodeCursor_map (ImagesError.validationFailed "invalid cursor")
    (fun k => (imageCursor k).encode_ne_empty) (fun k => (imageCursor k).decode_encode) c
  simp only [listImages, hcursor]
  rw [fetched, ← filter_isAfter isAfter_iff]
  rfl

/-- **The list of the images** shows every image that the user has once, in its order, whatever the
sweeps do that come before its pages. -/
theorem paginates_images {sweeps : Option String → Sweep} {before : Option String → List GeneratedImage}
    (userId : Uuid) {limit : ℕ} (hlimit : 1 ≤ limit) (hids : (rows.map GeneratedImage.id).Nodup)
    (hsame : ∀ c, visible now ((sweeps c).apply (before c)) userId = visible now rows userId) :
    Paginates (fun c => (listImages now (before c) true (sweeps c) userId limit c).1) limit
      ((visible now rows userId).map listItem) ImageListItem.before := by
  have hrows : ((visible now rows userId).map GeneratedImage.key).Nodup := by
    refine List.Nodup.of_map (fun k => (ofLex k).2) ?_
    rw [List.map_map]
    exact hids.sublist (List.filter_sublist.map _)
  have hfetch : ∀ c : Option (Timestamp ×ₗ Uuid),
      (listImages now (before (c.map fun k => (imageCursor k).encode)) true
        (sweeps (c.map fun k => (imageCursor k).encode)) userId limit
        (c.map fun k => (imageCursor k).encode)).1 =
      .ok (.of limit (fetched GeneratedImage.key limit (visible now rows userId) c) listItem
        fun row => (imageCursor row.key).encode) := fun c => by rw [listImages_map, hsame]
  exact paginates hlimit hrows hfetch fun a b => Prod.Lex.lt_iff.1

end Tables

end ChatBackend.Images
