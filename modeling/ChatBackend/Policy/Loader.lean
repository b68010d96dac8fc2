import ChatBackend.Byok.Data
import ChatBackend.Policy.Engine

/-!
# The state that the access policy sees

`load_policy_state` puts together what is stored of a user, and `effective` is the view of it that
the client is shown.
-/

namespace ChatBackend.Byok

/-- `ByokState(key_status)`. -/
def KeyStatus.byokState : KeyStatus → Policy.ByokState
  | valid => .valid
  | invalid => .invalid
  | missing => .missing
  | validating => .validating
  | offline => .offline
  | expired => .expired

@[simp] theorem KeyStatus.byokState_eq_valid {keyStatus : KeyStatus} :
    keyStatus.byokState = .valid ↔ keyStatus = .valid := by
  cases keyStatus <;> simp [byokState]

end ChatBackend.Byok

namespace ChatBackend.Policy

open Byok (ByokKey)
open Chat (BlockReason)

/-- `load_policy_state`, of the rows of the user, the wallet and the key, and the effective status
of the subscription. -/
def loadPolicyState (trialUsed : Option Bool) (subscription : SubscriptionStatus)
    (balance : Option ℤ) (byok : Option ByokKey) : PolicyState where
  subscriptionStatus := subscription
  trialUsed := trialUsed.getD false
  creditsBalance := balance.getD 0
  byokEnabled := (byok.map (·.enabled)).getD false
  byokStatus := (byok.map (·.keyStatus.byokState)).getD .missing

/-- `EffectivePolicy`. -/
structure EffectivePolicy where
  isSubscribed : Bool
  trialRemaining : ℕ
  creditsBalance : ℤ
  byokEnabled : Bool
  canGenerateCreditsMode : Bool
  canGenerateByokMode : Bool
  reasons : List BlockReason
  deriving DecidableEq, Repr

/-- `effective`. -/
def effective (state : PolicyState) : EffectivePolicy :=
  let creditsDecision := evaluate state .credits
  let byokDecision := evaluate state .byok
  { isSubscribed := state.subscriptionStatus = .active,
    trialRemaining := if state.subscriptionStatus = .none ∧ state.trialUsed = false then 1 else 0,
    creditsBalance := state.creditsBalance,
    byokEnabled := state.byokEnabled && decide (state.byokStatus = .valid),
    canGenerateCreditsMode := creditsDecision.allow,
    canGenerateByokMode := byokDecision.allow,
    reasons := creditsDecision.blockReason.toList ++
      byokDecision.blockReason.toList.filter (· ∉ creditsDecision.blockReason.toList) }

/-- A turn with the user's own key is allowed to a subscriber whose key is enabled and valid. -/
theorem evaluate_byok_iff (state : PolicyState) : evaluate state .byok = .allowed ↔
    state.subscriptionStatus = .active ∧ state.byokEnabled = true ∧ state.byokStatus = .valid := by
  obtain ⟨subscription, trialUsed, balance, enabled, keyStatus⟩ := state
  cases subscription <;> cases enabled <;> cases keyStatus <;> simp [evaluate, byokState]

/-- The key of a row that the policy sees as enabled and valid. -/
theorem loadPolicyState_byok (trialUsed : Option Bool) (subscription : SubscriptionStatus)
    (balance : Option ℤ) (byok : Option ByokKey) :
    ((loadPolicyState trialUsed subscription balance byok).byokEnabled = true ∧
      (loadPolicyState trialUsed subscription balance byok).byokStatus = .valid) ↔
    ∃ row, byok = some row ∧ row.enabled = true ∧ row.keyStatus = .valid := by
  cases byok <;> simp [loadPolicyState]

end ChatBackend.Policy
