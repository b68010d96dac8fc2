import ChatBackend.Chat.Data

/-!
# The access policy

`evaluate` decides whether a turn may be generated, and `billingPlan` how its final message is
billed. Both are pure.
-/

namespace ChatBackend.Policy

open Chat (Mode BlockReason)

inductive SubscriptionStatus : Type
  | active
  | expired
  | none
  deriving DecidableEq, Repr

inductive ByokState : Type
  | missing
  | disabled
  | invalid
  | valid
  | validating
  | offline
  | expired
  deriving DecidableEq, Repr

structure PolicyState where
  subscriptionStatus : SubscriptionStatus
  trialUsed : Bool
  creditsBalance : Int
  byokEnabled : Bool
  byokStatus : ByokState
  deriving DecidableEq, Repr

inductive Decision : Type
  | allowed
  | blocked (reason : BlockReason)
  deriving DecidableEq, Repr

def Decision.allow : Decision → Bool
  | allowed => true
  | blocked _ => false

def Decision.blockReason : Decision → Option BlockReason
  | allowed => .none
  | blocked r => some r

/-- `_byok_state`: disabled comes before the validity of the key. -/
def byokState (enabled : Bool) (status : ByokState) : ByokState :=
  if !enabled then .disabled else status

/-- The access decision. -/
def evaluate (state : PolicyState) : Mode → Decision
  | .byok =>
    match state.subscriptionStatus with
    | .expired => .blocked .subscriptionExpired
    | .none => .blocked .subscriptionRequired
    | .active =>
      match byokState state.byokEnabled state.byokStatus with
      | .disabled => .blocked .byokDisabled
      | .valid => .allowed
      | _ => .blocked .byokInvalid
  | .credits =>
    match state.subscriptionStatus with
    | .active => if state.creditsBalance = 0 then .blocked .creditsEmpty else .allowed
    | .expired => .blocked .subscriptionExpired
    | .none => if state.trialUsed then .blocked .trialUsed else .allowed

/-- `_BillingPlan`: how the final message of a turn is billed. -/
structure BillingPlan where
  debitCredits : Bool
  markTrial : Bool
  deriving DecidableEq, Repr

/-- `_billing_plan`. -/
def billingPlan (mode : Mode) (state : PolicyState) : BillingPlan :=
  match mode with
  | .byok => ⟨false, false⟩
  | .credits =>
    if state.subscriptionStatus = .active then ⟨true, false⟩
    else if state.subscriptionStatus = .none ∧ state.trialUsed = false then ⟨false, true⟩
    else ⟨false, false⟩

end ChatBackend.Policy
