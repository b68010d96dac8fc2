import Mathlib

/-!
# Identifiers, JSON and audit events

The data that the services share. Identifiers of rows are numbers: a server-generated one
(`gen_random_uuid()`, `uuid4()`, an identity column) is the next value of a counter that is never
rolled back.
-/

namespace ChatBackend

/-- A text without the character NUL, which PostgreSQL refuses. -/
def nulFree (s : String) : Bool := s.toList.all fun c => c ≠ Char.ofNat 0

/-- The JSON values of payloads, tool arguments and tool results; a float is kept as its text. -/
inductive Json : Type
  | null
  | bool (b : Bool)
  | num (n : Int)
  | float (text : String)
  | str (s : String)
  | arr (xs : List Json)
  | obj (kvs : List (String × Json))
  deriving Inhabited

namespace Json

/-- `d.get(key)` of a mapping. -/
def get : Json → String → Option Json
  | obj kvs, key => (kvs.find? fun kv => kv.1 == key).map Prod.snd
  | _, _ => none

/-- `None` is the JSON null. -/
def ofOption : Option Json → Json
  | some j => j
  | none => null

end Json

/-- `idempotency_key`: the text of an identifier, or any other text. -/
inductive IdemKey : Type
  | uuid (id : ℕ)
  | text (s : String)
  deriving DecidableEq, Repr

/-- `event_type` of an audit row: the events that the chat, the wallet and the billing services
record. -/
inductive EventType : Type
  | toolMutation
  | billingDebit
  | billingCredit
  | policyDecision
  | byokChange
  | chatStep
  | toolCallInitiated
  | toolCallCompleted
  | subscriptionChange
  | adaptySubscription
  | cloudpaymentsPayment
  deriving DecidableEq, Repr

/-- `AuditEvent`, as recorded in `audit_logs`. -/
structure AuditEvent where
  userId : ℕ
  sessionId : Option ℕ
  eventType : EventType
  payload : Json

end ChatBackend
