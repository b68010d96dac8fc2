import ChatBackend.Chat.Clients
import ChatBackend.Chat.Script

/-!
# Truncated tool calls

A turn whose response is cut off by the output-token limit ends as blocked, with no tool call of the
response, where the client heeds the limit (`ProviderResponse.Heeded`). The client of OpenAI looks
for function calls first, and both read the tool calls before they look at the limit.
-/

namespace ChatBackend.Chat

open Prog Chats

section Loop

variable {llm : LLMAnswer → Prop} {cfg : Config} {t : Turn} {provider : Provider} {g g' : ℕ}
  {d d' : ChatDb} {acc : Acc} {w : ChatWorld}

/-- An end by the limit reports what was executed, and nothing else. -/
theorem Ends.serverTools {answer : LLMAnswer} {pregen : Pregen} {out : ChatRunOut}
    (h : Ends cfg t acc g d answer pregen out g' d') (hout : out.blockReason = some .maxTokens) :
    out.serverTools = acc.serverTools := by
  cases h with
  | maxTokens => rfl
  | final => cases hout
  | unpaid => cases hout
  | client => cases hout
  | poor => cases hout
  | expired => cases hout

/-- A generation that ends by the limit reports at least what was executed when it began. -/
def Reports (acc : Acc) (o : Except AppError ChatRunOut) : Prop :=
  ∀ out, o = .ok out → out.blockReason = some .maxTokens → acc.serverTools <+: out.serverTools

theorem Reports.error (e : AppError) : Reports acc (.error e) := nofun

theorem Ends.reports {answer : LLMAnswer} {pregen : Pregen} {out : ChatRunOut}
    (h : Ends cfg t acc g d answer pregen out g' d') : Reports acc (.ok out) := by
  rintro _ ⟨⟩ hout
  exact ⟨[], by rw [List.append_nil, h.serverTools hout]⟩

end Loop

end ChatBackend.Chat
