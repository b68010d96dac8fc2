import ChatBackend.Model.Data
import ChatBackend.Observability.Redaction

/-!
# The audit service

`AuditService.record` redacts the payload of an event before it is inserted. The payload is redacted as
any other value; its keys are those of the services, and ASCII.
-/

namespace ChatBackend

open Observability

namespace Json

mutual

/-- A payload, as the redaction sees it. -/
def toValue : Json → Value Empty Json
  | .str s => .leaf (.str s)
  | .arr xs => .list (toValues xs)
  | .obj kvs => .dict (toEntries kvs)
  | j => .leaf (.other j)

def toValues : List Json → List (Value Empty Json)
  | [] => []
  | x :: xs => toValue x :: toValues xs

def toEntries : List (String × Json) → List (DictKey Empty × Value Empty Json)
  | [] => []
  | (k, x) :: kvs => (.str k, toValue x) :: toEntries kvs

end

mutual

/-- The payload that a value stands for. -/
def ofValue : Value Empty Json → Json
  | .leaf (.str s) => .str s
  | .leaf (.other j) => j
  | .list xs => .arr (ofValues xs)
  | .dict kvs => .obj (ofEntries kvs)

def ofValues : List (Value Empty Json) → List Json
  | [] => []
  | x :: xs => ofValue x :: ofValues xs

def ofEntries : List (DictKey Empty × Value Empty Json) → List (String × Json)
  | [] => []
  | (.str k, x) :: kvs => (k, ofValue x) :: ofEntries kvs

end

/-- `assert_no_secrets`. -/
def assertNoSecrets (payload : Json) : Json := ofValue (redact String.toLower payload.toValue)

/-- A scalar of a payload. -/
inductive IsScalar : Json → Prop
  | null : IsScalar .null
  | bool (b : Bool) : IsScalar (.bool b)
  | num (n : Int) : IsScalar (.num n)
  | float (text : String) : IsScalar (.float text)
  | str (s : String) : IsScalar (.str s)

theorem IsScalar.assertNoSecrets {j : Json} (h : j.IsScalar) : j.assertNoSecrets = j := by
  cases h <;> rfl

theorem IsScalar.ofOption_map {α : Type} {f : α → Json} (h : ∀ a, (f a).IsScalar) (o : Option α) :
    (Json.ofOption (o.map f)).IsScalar := by
  cases o with
  | none => exact .null
  | some a => exact h a

/-- A key whose value is no secret and no list of attachments. -/
def plainKey (k : String) : Bool :=
  !isSensitiveKey String.toLower k && String.toLower k != "attachments"

/-- Scalars under plain keys stay as they are. -/
theorem assertNoSecrets_eq {kvs : List (String × Json)}
    (h : ∀ kv ∈ kvs, plainKey kv.1 = true ∧ kv.2.IsScalar) : (Json.obj kvs).assertNoSecrets = .obj kvs := by
  show Json.obj (ofEntries (redactDict String.toLower (toEntries kvs))) = .obj kvs
  congr 1
  induction kvs with
  | nil => rfl
  | cons kv kvs ih =>
    obtain ⟨k, x⟩ := kv
    obtain ⟨hk, hx⟩ := h _ (List.mem_cons_self ..)
    simp only [plainKey, Bool.and_eq_true, Bool.not_eq_true', bne_iff_ne, ne_eq] at hk
    have hx : ofValue (redact String.toLower x.toValue) = x := hx.assertNoSecrets
    simp only [toEntries, redactDict, DictKey.isSensitive, DictKey.isAttachments, hk, ofEntries, hx,
      decide_false, Bool.false_eq_true, if_false]
    rw [ih fun kv hkv => h kv (List.mem_cons_of_mem _ hkv)]

end Json

/-- The row that `AuditService.record` inserts. -/
def AuditEvent.redacted (e : AuditEvent) : AuditEvent := { e with payload := e.payload.assertNoSecrets }

namespace AuditEvent

@[simp] theorem redacted_userId (e : AuditEvent) : e.redacted.userId = e.userId := rfl
@[simp] theorem redacted_sessionId (e : AuditEvent) : e.redacted.sessionId = e.sessionId := rfl
@[simp] theorem redacted_eventType (e : AuditEvent) : e.redacted.eventType = e.eventType := rfl

/-- An event with scalars under plain keys is inserted as it is. -/
theorem redacted_eq {u : ℕ} {s : Option ℕ} {ty : EventType} {kvs : List (String × Json)}
    (h : ∀ kv ∈ kvs, Json.plainKey kv.1 = true ∧ kv.2.IsScalar) :
    AuditEvent.redacted ⟨u, s, ty, .obj kvs⟩ = ⟨u, s, ty, .obj kvs⟩ := by
  unfold redacted
  rw [Json.assertNoSecrets_eq h]

end AuditEvent

end ChatBackend
