import ChatBackend.Byok.Service

/-!
# Runs of the key service from a script

A script has the outcomes of the validations, the replies of the providers and a counter for random
draws. With it the methods can be computed, with an encryption that only packs the key.
-/

namespace ChatBackend.Byok

open Store

/-- The answers of a run from outside. -/
structure ByokScript where
  validations : List KeyValidation
  replies : List Reply
  random : ℕ

/-- The random draw of a number. -/
def draw (n : ℕ) : Bytes := String.ofList (List.replicate n 'r')

/-- The answer of a statement. -/
def ByokStmt.answer (crypto : Crypto) (ω : ByokScript) (d : ByokDb) :
    (s : ByokStmt) → s.Resp × ByokScript
  | load u _ => (d.keys u, ω)
  | insert u _ => ((d.keys u).isNone, ω)
  | flush u loaded new => (decide (new = loaded) || (d.keys u).isSome, ω)
  | delete _ => ((), ω)
  | record _ => ((), ω)
  | urandom => ((draw ω.random, draw ω.random), { ω with random := ω.random + 1 })
  | encryptDek dek => (crypto.encryptDek ω.random dek, ω)
  | validateKey .. => (ω.validations.headD .offline, { ω with validations := ω.validations.tail })
  | subscription _ => (.active, ω)
  | createMessage .. => (ω.replies.headD .error, { ω with replies := ω.replies.tail })

theorem ByokStmt.allowed_answer (crypto : Crypto) (ω : ByokScript) (d : ByokDb) (s : ByokStmt) :
    s.Allowed crypto d (s.answer crypto ω d).1 := by
  cases s
  all_goals first
    | exact rfl
    | exact trivial
    | exact ⟨_, rfl⟩

/-- The statements, answered by a script. -/
def byokHandler (crypto : Crypto) : Handler (byokStore crypto) ByokScript where
  answer ω s g _ d := ((s.answer crypto ω d).1, s.writes d, s.outside g (s.answer crypto ω d).1, (),
    (s.answer crypto ω d).2)
  ok ω s g m d := ⟨s.allowed_answer crypto ω d, rfl, rfl⟩
  compat l l' := (l.filterMap ByokOp.lock).all fun u => u ∉ l'.filterMap ByokOp.lock
  compat_ok h u hu := by simpa using List.all_eq_true.1 h u hu

/-- An encryption that packs the key. -/
def packing : Crypto where
  encrypt _ nonce plaintext := nonce ++ plaintext
  decrypt _ nonce ciphertext :=
    if nonce.toList.isPrefixOf ciphertext.toList then
      some (String.ofList (ciphertext.toList.drop nonce.toList.length))
    else none
  encryptDek _ dek := dek
  decryptDek encryptedDek := some encryptedDek
  decrypt_encrypt dek nonce plaintext := by
    have hprefix : nonce.toList.isPrefixOf (nonce ++ plaintext).toList = true := by
      rw [List.isPrefixOf_iff_prefix, String.toList_append]
      exact List.prefix_append _ _
    rw [if_pos hprefix, String.toList_append, List.drop_left, String.ofList_toList]
  decryptDek_encryptDek _ _ := rfl

/-- An instance of OpenAI. -/
def openaiSettings : ByokSettings where
  llmProvider := .openai
  byokDefaultModelFor
    | .openai => "gpt-4o"
    | .anthropic => "claude-sonnet-4-5"
  maxServerToolRounds := 8

end ChatBackend.Byok
